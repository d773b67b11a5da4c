import Template.Proofs.CompileAgain

/-! # A warm cache

A compiled form that is newer than its template stays so as long as neither is written. After a run over
templates that are older than what is written, and have compiled forms of their own, that holds for each
of them.
-/

namespace Template

namespace Summary

variable {summary : Summary} {results : List (Path × Except TranspileError Bool)}

/-- Where nothing failed, every template was compiled or up to date. -/
theorem ok_of_failed_addAll (h : (summary.addAll results).failed = []) :
    summary.failed = [] ∧ ∀ result ∈ results, ∃ written, result.2 = .ok written := by
  induction results generalizing summary with
  | nil => exact ⟨h, nofun⟩
  | cons result results ih =>
    obtain ⟨source, outcome⟩ := result
    obtain ⟨hadd, hrest⟩ := ih h
    cases outcome with
    | error error => exact absurd hadd (List.concat_ne_nil _ _)
    | ok written =>
      refine ⟨?_, List.forall_mem_cons.2 ⟨⟨written, rfl⟩, hrest⟩⟩
      cases written <;> exact hadd

end Summary

namespace Disk

variable {disk now after : Disk} {cache : Cache} {transpiler : Transpiler} {source folder path : Path}
  {sources : List Path} {wanted : Text → Bool} {written : Location → Prop} {time : Time}

/-! ## Compiled forms that are newer -/

theorem lookUp_of_modifiedAt (h : disk.modifiedAt path = .ok time) :
    ∃ node, disk.lookUp path = .ok (disk.placeOf path, node) := by
  unfold modifiedAt at h
  cases hlookUp : disk.lookUp path with
  | error error =>
    rw [hlookUp] at h
    cases h
  | ok found =>
    obtain ⟨place, node⟩ := found
    exact ⟨node, by rw [(locate_eq_ok (lookUp_eq_ok hlookUp).1).2]⟩

/-- What is not written keeps its time; a directory has the time of the disk. -/
theorem GrowsAt.modifiedAt (h : GrowsAt written disk now) (hplace : ¬ written (disk.placeOf path))
    (htime : disk.modifiedAt path = .ok time) : ∃ later, now.modifiedAt path = .ok later ∧ time ≤ later := by
  obtain ⟨node, hlookUp⟩ := lookUp_of_modifiedAt htime
  cases node with
  | directory =>
    rw [modifiedAt_of_directory hlookUp] at htime
    cases htime
    exact ⟨_, modifiedAt_of_directory (h.lookUp hlookUp), h.clock⟩
  | file contents found =>
    rw [modifiedAt_of_file hlookUp] at htime
    cases htime
    obtain ⟨hlocate, hnode⟩ := lookUp_eq_ok hlookUp
    have hsame : now.node? (disk.placeOf path) = some (.file contents time) := by
      rcases h.others _ hplace with hsame | ⟨hnone, -⟩
      · rw [hsame, hnode]
      · rw [hnode] at hnone
        cases hnone
    have hfile : now.lookUp path = .ok (disk.placeOf path, .file contents time) := by
      rw [lookUp_of_ok hlocate, hnode] at hlookUp
      rw [lookUp_of_ok (h.locate_ok hlocate), hsame]
      exact hlookUp
    exact ⟨time, modifiedAt_of_file hfile, Nat.le_refl _⟩

/-- The compiled form of a template is there and newer. -/
def IsFresh (disk : Disk) (cache : Cache) (source : Path) : Prop :=
  disk.isStale source (cache.compiledPath source) = .ok false

theorem isFresh_iff : disk.IsFresh cache source ↔ ∃ sourceTime compiledTime,
    disk.modifiedAt source = .ok sourceTime ∧ disk.modifiedAt (cache.compiledPath source) = .ok compiledTime ∧
      sourceTime < compiledTime := by
  unfold IsFresh isStale
  constructor
  · intro h
    split at h
    case isTrue =>
      cases hsource : disk.modifiedAt source with
      | error error =>
        rw [hsource] at h
        cases h
      | ok sourceTime =>
        cases hcompiled : disk.modifiedAt (cache.compiledPath source) with
        | error error =>
          rw [hsource, hcompiled] at h
          cases h
        | ok compiledTime =>
          rw [hsource, hcompiled] at h
          exact ⟨_, _, rfl, rfl, Nat.lt_of_not_le (of_decide_eq_false (Except.ok.inj h))⟩
    case isFalse => cases h
  · rintro ⟨sourceTime, compiledTime, hsource, hcompiled, hlt⟩
    obtain ⟨node, hlookUp⟩ := lookUp_of_modifiedAt hcompiled
    have hpresent : disk.isPresent (cache.compiledPath source) = true := by
      rw [isPresent, hlookUp]
      rfl
    rw [if_pos hpresent, hsource, hcompiled]
    exact congrArg Except.ok (decide_eq_false (Nat.not_le_of_lt hlt))

theorem IsFresh.isPresent (h : disk.IsFresh cache source) : disk.isPresent (cache.compiledPath source) = true := by
  obtain ⟨_, _, -, hcompiled, -⟩ := isFresh_iff.1 h
  obtain ⟨node, hlookUp⟩ := lookUp_of_modifiedAt hcompiled
  rw [Disk.isPresent, hlookUp]
  rfl

/-- It stays newer as long as neither of the two is written. -/
theorem IsFresh.grows (h : disk.IsFresh cache source) (hnow : GrowsAt written disk now)
    (hplace : ¬ written (disk.placeOf (cache.compiledPath source)))
    (hsame : now.modifiedAt source = disk.modifiedAt source) : now.IsFresh cache source := by
  obtain ⟨sourceTime, compiledTime, hsource, hcompiled, hlt⟩ := isFresh_iff.1 h
  obtain ⟨later, hlater, hle⟩ := hnow.modifiedAt hplace hcompiled
  exact isFresh_iff.2 ⟨sourceTime, later, hsame.trans hsource, hlater, Nat.lt_of_lt_of_le hlt hle⟩

theorem refresh_of_isFresh (hcache : transpiler.cache = some cache) (h : disk.IsFresh cache source) :
    disk.refresh transpiler source = (.ok false, disk) := by
  rw [refresh_apply hcache, show disk.isStale source (cache.compiledPath source) = .ok false from h]

/-- Compiling a template writes its compiled form, if anything. -/
theorem refresh_growsAt (htree : disk.IsTree) (hcache : transpiler.cache = some cache) (source : Path) :
    GrowsAt (· = disk.placeOf (cache.compiledPath source)) disk (disk.refresh transpiler source).2 := by
  rw [refresh_apply hcache]
  cases disk.isStale source (cache.compiledPath source) with
  | error error => exact .refl htree
  | ok stale =>
    cases stale with
    | false => exact .refl htree
    | true =>
      cases disk.codeOf transpiler source with
      | error error => exact .refl htree
      | ok code =>
        have hgrows := store_growsAt htree (cache.compiledPath source) (.text code) disk.clock
        dsimp only
        cases hstore : disk.store (cache.compiledPath source) (.text code) disk.clock with
        | mk after outcome =>
          rw [hstore] at hgrows
          cases outcome <;> exact hgrows

/-- A template that is older than what is written is in order once it has been compiled. -/
theorem isFresh_of_refresh {stored : Bool} (hcache : transpiler.cache = some cache)
    (hearlier : ∀ time, disk.modifiedAt source = .ok time → time < disk.clock)
    (h : (disk.refresh transpiler source).1 = .ok stored)
    (hsame : (disk.refresh transpiler source).2.modifiedAt source = disk.modifiedAt source) :
    (disk.refresh transpiler source).2.IsFresh cache source := by
  rw [refresh_apply hcache] at h hsame ⊢
  cases hstale : disk.isStale source (cache.compiledPath source) with
  | error error =>
    rw [hstale] at h
    cases h
  | ok stale =>
    cases stale with
    | false => exact hstale
    | true =>
      rw [hstale] at h hsame
      cases hcode : disk.codeOf transpiler source with
      | error error =>
        rw [hcode] at h
        cases h
      | ok code =>
        rw [hcode] at h hsame
        dsimp only at h hsame ⊢
        cases hstore : disk.store (cache.compiledPath source) (.text code) disk.clock with
        | mk after outcome =>
          rw [hstore] at h hsame
          cases outcome with
          | error error => cases h
          | ok =>
            obtain ⟨sourceTime, hsource⟩ := exists_modifiedAt hcode
            obtain ⟨place, hlookUp⟩ := exists_lookUp_of_store hstore
            exact isFresh_iff.2 ⟨_, _, hsame.trans hsource, modifiedAt_of_file hlookUp, hearlier _ hsource⟩

/-! ## A run over templates -/

/-- Compiles the templates that have to be, one after another: what came of each, and the disk after
    them. -/
def refreshEach (transpiler : Transpiler) : List Path → Disk → List (Path × Except TranspileError Bool) × Disk
  | [], disk => ([], disk)
  | source :: sources, disk =>
    let (outcome, next) := disk.refresh transpiler source
    let (log, after) := refreshEach transpiler sources next
    ((source, outcome) :: log, after)

theorem foldlM_refreshInto (sources : List Path) (summary : Summary) (disk : Disk) :
    (sources.foldlM transpiler.refreshInto summary : StateM Disk Summary) disk =
      (summary.addAll (refreshEach transpiler sources disk).1, (refreshEach transpiler sources disk).2) := by
  induction sources generalizing summary disk with
  | nil => rfl
  | cons source sources ih =>
    rw [List.foldlM_cons, Run.stateM_bind_apply, Transpiler.refreshInto_apply, ih]
    rfl

theorem exists_mem_log (transpiler : Transpiler) (disk : Disk) (h : source ∈ sources) :
    ∃ outcome, (source, outcome) ∈ (disk.refreshEach transpiler sources).1 := by
  induction sources generalizing disk with
  | nil => cases h
  | cons first sources ih =>
    rcases List.mem_cons.1 h with rfl | hmem
    · exact ⟨_, List.mem_cons_self⟩
    · obtain ⟨outcome, hlog⟩ := ih (disk.refresh transpiler first).2 hmem
      exact ⟨outcome, List.mem_cons_of_mem _ hlog⟩

theorem placeOf_compiledPath (hslash : '/' ∉ cache.extension) (disk : Disk) (source : Path) :
    disk.placeOf (cache.compiledPath source) = disk.artifactPlace cache source := by
  rw [Cache.compiledPath_eq, placeOf_join (Cache.isSegment_artifactName hslash source)
    (Cache.artifactName_ne_cons source _) (Cache.artifactName_ne_cons source _)]
  rfl

/-- The templates below a folder are older than what is written, and each has a compiled form of its own,
    outside the folder. -/
structure Warmable (disk : Disk) (cache : Cache) (wanted : Text → Bool) (folder : Path) : Prop where
  tree : disk.IsTree
  slash : '/' ∉ cache.extension
  root : disk.lookUp folder = .ok (disk.placeOf folder, .directory)
  outside : ¬ disk.placeOf folder <:+ disk.placeOf cache.dir
  earlier : ∀ source ∈ disk.templates wanted folderDepth folder, ∀ time,
    disk.modifiedAt source = .ok time → time < disk.clock
  apart : ∀ source ∈ disk.templates wanted folderDepth folder,
    ∀ other ∈ disk.templates wanted folderDepth folder,
      cache.compiledPath source = cache.compiledPath other → source = other

section

variable (h : disk.Warmable cache wanted folder) (hcache : transpiler.cache = some cache)
  (hnow : GrowsAt (disk.IsArtifact cache) disk now)

include h

theorem Warmable.unwanted (name : Text) (dir : Location) (hartifact : disk.IsArtifact cache (name :: dir))
    (hroot : disk.placeOf folder <:+ dir) : wanted name = false := by
  obtain ⟨source, hplace⟩ := hartifact
  obtain ⟨rfl, rfl⟩ := List.cons.inj hplace
  exact absurd hroot h.outside

include hnow

theorem Warmable.modifiedAt (hsource : source ∈ disk.templates wanted folderDepth folder) :
    now.modifiedAt source = disk.modifiedAt source :=
  modifiedAt_of_mem_templates h.tree h.unwanted (reached_root h.root) hsource hnow

include hcache

theorem Warmable.refresh_growsAt (source : Path) :
    GrowsAt (disk.IsArtifact cache) now (now.refresh transpiler source).2 := by
  refine (Disk.refresh_growsAt hnow.tree hcache source).mono fun place hplace => ⟨source, ?_⟩
  rw [hplace, placeOf_compiledPath h.slash, artifactPlace, hnow.placeOf]
  rfl

/-- Compiling one template leaves the others in order. -/
theorem Warmable.isFresh_refresh {other : Path} (hsource : source ∈ disk.templates wanted folderDepth folder)
    (hother : other ∈ disk.templates wanted folderDepth folder) (hfresh : now.IsFresh cache source) :
    (now.refresh transpiler other).2.IsFresh cache source := by
  by_cases hsame : source = other
  case pos =>
    rw [← hsame, refresh_of_isFresh hcache hfresh]
    exact hfresh
  case neg =>
    have hgrows := Disk.refresh_growsAt hnow.tree hcache other
    have hlater := hnow.trans (h.refresh_growsAt hcache hnow other)
    refine hfresh.grows hgrows (fun hplace => hsame ?_) ?_
    · rw [placeOf_compiledPath h.slash, placeOf_compiledPath h.slash] at hplace
      apply h.apart source hsource other hother
      rw [Cache.compiledPath_eq, Cache.compiledPath_eq, (List.cons.inj hplace).1]
    · rw [h.modifiedAt hlater hsource, h.modifiedAt hnow hsource]

/-- After a run in which nothing failed every template is in order. -/
theorem Warmable.refreshEach (hsources : ∀ source ∈ sources, source ∈ disk.templates wanted folderDepth folder)
    (hok : ∀ result ∈ (refreshEach transpiler sources now).1, ∃ written, result.2 = .ok written) :
    GrowsAt (disk.IsArtifact cache) now (refreshEach transpiler sources now).2 ∧
      (∀ source ∈ disk.templates wanted folderDepth folder, now.IsFresh cache source →
        (refreshEach transpiler sources now).2.IsFresh cache source) ∧
      ∀ source ∈ sources, (refreshEach transpiler sources now).2.IsFresh cache source := by
  induction sources generalizing now with
  | nil => exact ⟨.refl hnow.tree, fun _ _ hfresh => hfresh, nofun⟩
  | cons first sources ih =>
    rw [List.forall_mem_cons] at hsources
    have hgrows := h.refresh_growsAt hcache hnow first
    have hnext := hnow.trans hgrows
    obtain ⟨⟨stored, hstored⟩, hrest⟩ := List.forall_mem_cons.1 hok
    obtain ⟨hafter, hkept, hall⟩ := ih hnext hsources.2 hrest
    refine ⟨hgrows.trans hafter, fun source hsource hfresh => ?_, List.forall_mem_cons.2 ⟨?_, hall⟩⟩
    · exact hkept source hsource (h.isFresh_refresh hcache hnow hsource hsources.1 hfresh)
    · refine hkept first hsources.1 (isFresh_of_refresh hcache (fun time htime => ?_) hstored ?_)
      · rw [h.modifiedAt hnow hsources.1] at htime
        exact Nat.lt_of_lt_of_le (h.earlier first hsources.1 time htime) hnow.clock
      · rw [h.modifiedAt hnext hsources.1, h.modifiedAt hnow hsources.1]

end

/-- A run over a folder compiles the templates in it one after another. -/
theorem Warmable.compileFolder {extensions : List Text} (h : disk.Warmable cache (hasExtension extensions) folder)
    (hcache : transpiler.cache = some cache) :
    (transpiler.compileFolder extensions false folder : StateM Disk Summary) disk =
      let (log, after) :=
        Disk.refreshEach transpiler (disk.templates (hasExtension extensions) folderDepth folder) disk
      (Summary.empty.addAll log, after) := by
  have hstep : ∀ summary source now, GrowsAt (disk.IsArtifact cache) disk now →
      GrowsAt (disk.IsArtifact cache) now (transpiler.refreshInto summary source now).2 :=
    fun _ source _ hnow => h.refresh_growsAt hcache hnow source
  rw [Transpiler.compileFolder_eq_visit, visit_eq_foldlM hstep h.tree h.unwanted (reached_root h.root) (.refl h.tree),
    foldlM_refreshInto]

end Disk

end Template
