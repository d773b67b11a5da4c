import Template.Proofs.FolderFiles
import Template.Proofs.OneTemplate
import Template.Proofs.StoreFrame
import Template.Proofs.WarmCache

/-! # Each template alone

What comes of a template depends on its file, on what is at the path of its compiled form and on whether
a file can be stored there. Compiling another template leaves all of these as they are. So in a run over
a folder it comes to the same as if it were compiled alone, before the run.
-/

namespace Template

namespace Disk

variable {disk now after : Disk} {cache : Cache} {transpiler : Transpiler} {always : Bool}
  {source other : Path} {contents' : Contents} {time' : Time}

/-! ## One attempt -/

/-- Compiling a template, in any case or only if it has to be: what came of it, and the disk after it. -/
def attempt (disk : Disk) (transpiler : Transpiler) (always : Bool) (source : Path) :
    Except TranspileError Bool × Disk :=
  ((transpiler.refresh always source : FilesT (StateM Disk) Bool).run : StateM Disk _) disk

/-- Whether an attempt compiles the template. -/
def isDue (disk : Disk) (always : Bool) (source compiled : Path) : Except IoError Bool :=
  if always then .ok true else disk.isStale source compiled

theorem attempt_apply (hcache : transpiler.cache = some cache) (always : Bool) (source : Path) (disk : Disk) :
    disk.attempt transpiler always source =
      match disk.isDue always source (cache.compiledPath source) with
      | .error error => (.error (.io error), disk)
      | .ok false => (.ok false, disk)
      | .ok true =>
        match disk.codeOf transpiler source with
        | .error error => (.error error, disk)
        | .ok code =>
          match disk.store (cache.compiledPath source) (.text code) disk.clock with
          | (after, .error error) => (.error (.io error), after)
          | (after, .ok ()) => (.ok true, after) := by
  cases always with
  | false => exact refresh_apply hcache source disk
  | true => exact CommandLine.refresh_always hcache source disk

/-- An attempt stores the code of the template at the path of its compiled form, or changes nothing. -/
theorem attempt_snd (hcache : transpiler.cache = some cache) (always : Bool) (source : Path) (disk : Disk) :
    (disk.attempt transpiler always source).2 = disk ∨ ∃ code, (disk.attempt transpiler always source).2 =
      (disk.store (cache.compiledPath source) (.text code) disk.clock).1 := by
  rw [attempt_apply hcache]
  cases disk.isDue always source (cache.compiledPath source) with
  | error error => exact .inl rfl
  | ok due =>
    cases due with
    | false => exact .inl rfl
    | true =>
      cases disk.codeOf transpiler source with
      | error error => exact .inl rfl
      | ok code =>
        refine .inr ⟨code, ?_⟩
        dsimp only
        cases disk.store (cache.compiledPath source) (.text code) disk.clock with
        | mk after outcome => cases outcome <;> rfl

theorem modifiedAt_eq (disk : Disk) (path : Path) :
    disk.modifiedAt path = (disk.lookUp path).map fun found => (timeOf found.2).getD disk.clock := by
  cases hlookUp : disk.lookUp path with
  | error error =>
    rw [modifiedAt, hlookUp]
    rfl
  | ok found =>
    obtain ⟨place, node⟩ := found
    cases node with
    | directory => exact modifiedAt_of_directory hlookUp
    | file contents time => exact modifiedAt_of_file hlookUp

theorem isStale_eq (disk : Disk) (source compiled : Path) : disk.isStale source compiled =
    match (disk.lookUp compiled).toOption with
    | none => .ok true
    | some found => (disk.modifiedAt source).map fun time => decide ((timeOf found.2).getD disk.clock ≤ time) := by
  unfold isStale isPresent
  rw [disk.modifiedAt_eq compiled]
  cases disk.lookUp compiled with
  | error error => rfl
  | ok found => cases disk.modifiedAt source <;> rfl

/-! ## What an attempt depends on -/

/-- Two disks are the same to a template. -/
structure SameFor (cache : Cache) (source : Path) (disk now : Disk) : Prop where
  workdir : now.workdir = disk.workdir
  clock : now.clock = disk.clock
  file : now.lookUp source = disk.lookUp source
  artifact : (now.lookUp (cache.compiledPath source)).toOption =
    (disk.lookUp (cache.compiledPath source)).toOption
  stores : ∀ contents time, (now.store (cache.compiledPath source) contents time).2 =
    (disk.store (cache.compiledPath source) contents time).2

namespace SameFor

theorem refl (cache : Cache) (source : Path) (disk : Disk) : SameFor cache source disk disk :=
  ⟨rfl, rfl, rfl, rfl, fun _ _ => rfl⟩

theorem trans (h : SameFor cache source disk now) (h' : SameFor cache source now after) :
    SameFor cache source disk after where
  workdir := h'.workdir.trans h.workdir
  clock := h'.clock.trans h.clock
  file := h'.file.trans h.file
  artifact := h'.artifact.trans h.artifact
  stores contents time := (h'.stores contents time).trans (h.stores contents time)

variable (h : SameFor cache source disk now)

include h

theorem codeOf (transpiler : Transpiler) : now.codeOf transpiler source = disk.codeOf transpiler source := by
  unfold Disk.codeOf readText
  rw [h.file]

theorem isDue (always : Bool) : now.isDue always source (cache.compiledPath source) =
    disk.isDue always source (cache.compiledPath source) := by
  unfold Disk.isDue
  rw [isStale_eq, isStale_eq, modifiedAt_eq, modifiedAt_eq, h.artifact, h.file, h.clock]

theorem placeOf (path : Path) : now.placeOf path = disk.placeOf path := by
  unfold Disk.placeOf start
  rw [h.workdir]

/-- On both disks the same comes of the template. -/
theorem attempt_fst (hcache : transpiler.cache = some cache) :
    (now.attempt transpiler always source).1 = (disk.attempt transpiler always source).1 := by
  rw [attempt_apply hcache, attempt_apply hcache, h.isDue, h.codeOf, h.clock]
  cases disk.isDue always source (cache.compiledPath source) with
  | error error => rfl
  | ok due =>
    cases due with
    | false => rfl
    | true =>
      cases disk.codeOf transpiler source with
      | error error => rfl
      | ok code =>
        have hstores := h.stores (.text code) disk.clock
        dsimp only
        cases hnow : now.store (cache.compiledPath source) (.text code) disk.clock with
        | mk later outcome =>
          cases hdisk : disk.store (cache.compiledPath source) (.text code) disk.clock with
          | mk after outcome' =>
            rw [hnow, hdisk] at hstores
            cases hstores
            cases outcome <;> rfl

end SameFor

/-! ## What an attempt leaves -/

section

variable (hplaces : disk.KeepsPlaces cache) (htree : disk.IsTree) (hcache : transpiler.cache = some cache)

include hplaces htree

/-- Storing one compiled form changes nothing for another. -/
theorem KeepsPlaces.store_frame (hne : cache.compiledPath source ≠ cache.compiledPath other) :
    let after := (disk.store (cache.compiledPath other) contents' time').1
    GrowsAt (disk.IsArtifact cache) disk after ∧
      (after.lookUp (cache.compiledPath source)).toOption = (disk.lookUp (cache.compiledPath source)).toOption ∧
      ∀ contents time, (after.store (cache.compiledPath source) contents time).2 =
        (disk.store (cache.compiledPath source) contents time).2 := by
  have hrefl := Grows.refl htree
  have hname : cache.artifactName source ≠ cache.artifactName other := by
    intro heq
    rw [Cache.compiledPath_eq, Cache.compiledPath_eq, heq] at hne
    exact hne rfl
  obtain ⟨hgrows, hkept⟩ := hplaces.store_grows hrefl other contents' time'
  refine ⟨hgrows, hplaces.lookUp_again hrefl hgrows.toGrows (hkept source hname), fun contents time => ?_⟩
  exact store_after_store (Cache.isSegment_artifactName hplaces.slash source) (Cache.artifactName_ne_cons source _)
    (Cache.artifactName_ne_cons source _) (Cache.isSegment_artifactName hplaces.slash other)
    (Cache.artifactName_ne_cons other _) (Cache.artifactName_ne_cons other _) hname htree hplaces.leaves

include hcache

theorem KeepsPlaces.attempt_growsAt (always : Bool) (source : Path) :
    GrowsAt (disk.IsArtifact cache) disk (disk.attempt transpiler always source).2 := by
  rcases attempt_snd hcache always source disk with hsame | ⟨code, hstore⟩
  · rw [hsame]
    exact .refl htree
  · rw [hstore]
    exact (hplaces.store_grows (.refl htree) source (.text code) disk.clock).1

/-- Compiling another template changes nothing for a template, if its file is not changed. -/
theorem KeepsPlaces.sameFor_attempt (hne : cache.compiledPath source ≠ cache.compiledPath other)
    (hsource : (disk.attempt transpiler always other).2.lookUp source = disk.lookUp source) :
    SameFor cache source disk (disk.attempt transpiler always other).2 := by
  rcases attempt_snd hcache always other disk with hsame | ⟨code, hstore⟩
  · rw [hsame]
    exact .refl cache source disk
  · rw [hstore] at hsource ⊢
    obtain ⟨hgrows, hartifact, hstores⟩ := hplaces.store_frame htree hne
    exact ⟨hgrows.workdir, clock_store .., hsource, hartifact, hstores⟩

/-- Only what is stored is new at the path of the compiled form. -/
theorem KeepsPlaces.lookUp_attempt (always : Bool) (source : Path) :
    ((disk.attempt transpiler always source).2.lookUp (cache.compiledPath source)).toOption =
      match (disk.attempt transpiler always source).1, disk.codeOf transpiler source with
      | .ok true, .ok code => some (disk.placeOf (cache.compiledPath source), .file (.text code) disk.clock)
      | _, _ => (disk.lookUp (cache.compiledPath source)).toOption := by
  rw [attempt_apply hcache]
  cases disk.isDue always source (cache.compiledPath source) with
  | error error => rfl
  | ok due =>
    cases due with
    | false => rfl
    | true =>
      cases disk.codeOf transpiler source with
      | error error => rfl
      | ok code =>
        have hrefl := Grows.refl htree
        obtain ⟨made, hmade, hsame, hstores⟩ := hplaces.exists_stores hrefl source
        dsimp only
        cases hstores with
        | barred error hbarred =>
          rw [hbarred]
          exact hplaces.lookUp_again hrefl hmade.toGrows (hsame source)
        | stored hlocate hfree hstored =>
          obtain ⟨place, hlookUp⟩ := exists_lookUp_of_store (hstored (.text code) disk.clock)
          have hplace : place = disk.placeOf (cache.compiledPath source) :=
            (locate_eq_ok (lookUp_eq_ok hlookUp).1).2.trans (hmade.placeOf _)
          rw [hstored]
          dsimp only
          rw [hlookUp, hplace]
          rfl

end

/-- On two disks that are the same to a template, an attempt leaves the same at the path of its compiled
    form. -/
theorem SameFor.lookUp_attempt (h : SameFor cache source disk now) (hplaces : disk.KeepsPlaces cache)
    (htree : disk.IsTree) (hplaces' : now.KeepsPlaces cache) (htree' : now.IsTree)
    (hcache : transpiler.cache = some cache) (always : Bool) :
    ((now.attempt transpiler always source).2.lookUp (cache.compiledPath source)).toOption =
      ((disk.attempt transpiler always source).2.lookUp (cache.compiledPath source)).toOption := by
  rw [hplaces.lookUp_attempt htree hcache, hplaces'.lookUp_attempt htree' hcache, h.attempt_fst hcache, h.codeOf,
    h.placeOf, h.clock, h.artifact]

end Disk

/-! ## A run over templates -/

namespace Transpiler

/-- Compiles a template, in any case or if it has to be, and notes what came of it. -/
def compileInto (transpiler : Transpiler) (always : Bool) (summary : Summary) (source : Path) :
    StateM Disk Summary := do
  pure (summary.add source (← (transpiler.refresh always source : FilesT (StateM Disk) Bool).run))

theorem compileInto_apply (transpiler : Transpiler) (always : Bool) (summary : Summary) (source : Path) (disk : Disk) :
    transpiler.compileInto always summary source disk =
      (summary.add source (disk.attempt transpiler always source).1, (disk.attempt transpiler always source).2) := rfl

theorem compileFolder_eq (transpiler : Transpiler) (extensions : List Text) (always : Bool) (folder : Path) :
    (transpiler.compileFolder extensions always folder : StateM Disk Summary) =
      Folders.visit (hasExtension extensions) (transpiler.compileInto always) folderDepth folder .empty := rfl

end Transpiler

namespace Disk

variable {disk now : Disk} {cache : Cache} {transpiler : Transpiler} {always : Bool}
  {source other folder : Path} {sources : List Path}

/-- Compiles templates one after another: what came of each, and the disk after them. -/
def compileEach (transpiler : Transpiler) (always : Bool) :
    List Path → Disk → List (Path × Except TranspileError Bool) × Disk
  | [], disk => ([], disk)
  | source :: sources, disk =>
    let (outcome, next) := disk.attempt transpiler always source
    let (log, after) := compileEach transpiler always sources next
    ((source, outcome) :: log, after)

section

variable (hplaces : disk.KeepsPlaces cache) (htree : disk.IsTree) (hcache : transpiler.cache = some cache)
  (hnow : GrowsAt (disk.IsArtifact cache) disk now)

include hplaces hcache hnow

theorem KeepsPlaces.growsAt_attempt_now (always : Bool) (source : Path) :
    GrowsAt (disk.IsArtifact cache) now (now.attempt transpiler always source).2 := by
  refine ((hplaces.grows hnow.toGrows).attempt_growsAt hnow.tree hcache always source).mono ?_
  rintro place ⟨artifact, rfl⟩
  refine ⟨artifact, ?_⟩
  rw [artifactPlace, artifactPlace, hnow.placeOf]

/-- At the path of a compiled form the same is found after a run over other templates. -/
theorem KeepsPlaces.lookUp_compileEach (always : Bool)
    (hother : cache.compiledPath other ∉ sources.map cache.compiledPath) :
    GrowsAt (disk.IsArtifact cache) now (compileEach transpiler always sources now).2 ∧
      ((compileEach transpiler always sources now).2.lookUp (cache.compiledPath other)).toOption =
        (now.lookUp (cache.compiledPath other)).toOption := by
  induction sources generalizing now with
  | nil => exact ⟨.refl hnow.tree, rfl⟩
  | cons source sources ih =>
    rw [List.map_cons, List.mem_cons, not_or] at hother
    have hgrows := hplaces.growsAt_attempt_now hcache hnow always source
    obtain ⟨hafter, hsame⟩ := ih (hnow.trans hgrows) hother.2
    refine ⟨hgrows.trans hafter, hsame.trans ?_⟩
    rcases attempt_snd hcache always source now with hkept | ⟨code, hstore⟩
    · rw [hkept]
    · rw [hstore]
      exact ((hplaces.grows hnow.toGrows).store_frame hnow.tree hother.1).2.1

include htree

/-- In a run over templates with compiled forms of their own each one comes to the same as alone. -/
theorem KeepsPlaces.compileEach_alone (hown : (sources.map cache.compiledPath).Nodup)
    (hfiles : ∀ source ∈ sources, ∀ later, GrowsAt (disk.IsArtifact cache) disk later →
      later.lookUp source = disk.lookUp source)
    (hsame : ∀ source ∈ sources, SameFor cache source disk now) :
    (compileEach transpiler always sources now).1 =
        sources.map (fun source => (source, (disk.attempt transpiler always source).1)) ∧
      ∀ source ∈ sources, ((compileEach transpiler always sources now).2.lookUp (cache.compiledPath source)).toOption =
        ((disk.attempt transpiler always source).2.lookUp (cache.compiledPath source)).toOption := by
  induction sources generalizing now with
  | nil => exact ⟨rfl, nofun⟩
  | cons source sources ih =>
    rw [List.map_cons, List.nodup_cons] at hown
    rw [List.forall_mem_cons] at hfiles hsame
    have hgrows := hplaces.growsAt_attempt_now hcache hnow always source
    have hnext := hnow.trans hgrows
    have hplacesnow := hplaces.grows hnow.toGrows
    -- To the templates that are left the disk is still the same as it was at first.
    have hleft : ∀ other ∈ sources, SameFor cache other disk (now.attempt transpiler always source).2 := by
      intro other hother
      refine (hsame.2 other hother).trans (hplacesnow.sameFor_attempt hnow.tree hcache (fun heq => hown.1 ?_) ?_)
      · rw [← heq]
        exact List.mem_map_of_mem hother
      · rw [hfiles.2 other hother _ hnext, hfiles.2 other hother _ hnow]
    obtain ⟨hlog, hartifacts⟩ := ih hnext hown.2 hfiles.2 hleft
    obtain ⟨-, hkept⟩ := hplaces.lookUp_compileEach hcache hnext always hown.1
    refine ⟨?_, List.forall_mem_cons.2 ⟨?_, hartifacts⟩⟩
    · rw [List.map_cons, ← hlog, ← hsame.1.attempt_fst hcache]
      rfl
    · exact hkept.trans (hsame.1.lookUp_attempt hplaces htree hplacesnow hnow.tree hcache always)

end

theorem foldlM_compileInto (transpiler : Transpiler) (always : Bool) (sources : List Path) (summary : Summary)
    (disk : Disk) :
    (sources.foldlM (transpiler.compileInto always) summary : StateM Disk Summary) disk =
      let run := compileEach transpiler always sources disk
      (summary.addAll run.1, run.2) := by
  induction sources generalizing summary disk with
  | nil => rfl
  | cons source sources ih =>
    rw [List.foldlM_cons, Run.stateM_bind_apply, Transpiler.compileInto_apply, ih]
    rfl

/-- The compiled forms of the templates below a folder have paths of their own, outside the folder. -/
structure CompilesApart (disk : Disk) (cache : Cache) (wanted : Text → Bool) (folder : Path) : Prop where
  tree : disk.IsTree
  directory : disk.isDirectory folder = true
  places : disk.KeepsPlaces cache
  outside : ¬ disk.placeOf folder <:+ disk.placeOf cache.dir
  own : ((disk.templates wanted folderDepth folder).map cache.compiledPath).Nodup

section

variable {wanted : Text → Bool} (h : disk.CompilesApart cache wanted folder)

include h

theorem CompilesApart.lookUp_folder : disk.lookUp folder = .ok (disk.placeOf folder, .directory) := by
  obtain ⟨place, hlocate, hnode⟩ := isDirectory_iff.1 h.directory
  rw [← (locate_eq_ok hlocate).2]
  exact lookUp_of_directory hlocate hnode

theorem CompilesApart.unwanted (name : Text) (dir : Location) (hartifact : disk.IsArtifact cache (name :: dir))
    (hroot : disk.placeOf folder <:+ dir) : wanted name = false := by
  obtain ⟨source, hplace⟩ := hartifact
  obtain ⟨rfl, rfl⟩ := List.cons.inj hplace
  exact absurd hroot h.outside

variable (hcache : transpiler.cache = some cache)

include hcache

/-- In a run over the templates each one comes to the same as alone. -/
theorem CompilesApart.compileEach_alone (always : Bool) :
    let sources := disk.templates wanted folderDepth folder
    let run := compileEach transpiler always sources disk
    run.1 = sources.map (fun source => (source, (disk.attempt transpiler always source).1)) ∧
      ∀ source ∈ sources, (run.2.lookUp (cache.compiledPath source)).toOption =
        ((disk.attempt transpiler always source).2.lookUp (cache.compiledPath source)).toOption := by
  refine h.places.compileEach_alone h.tree hcache (.refl h.tree) h.own (fun source hsource later hlater => ?_)
    fun source _ => .refl cache source disk
  exact (lookUp_of_mem_templates h.tree h.unwanted (reached_root h.lookUp_folder) hsource).1 later hlater

end

/-- A run over a folder compiles the templates in it one after another. -/
theorem CompilesApart.compileFolder {extensions : List Text}
    (h : disk.CompilesApart cache (hasExtension extensions) folder) (hcache : transpiler.cache = some cache)
    (always : Bool) :
    (transpiler.compileFolder extensions always folder : StateM Disk Summary) disk =
      let run := compileEach transpiler always (disk.templates (hasExtension extensions) folderDepth folder) disk
      (Summary.empty.addAll run.1, run.2) := by
  have hstep : ∀ summary source now, GrowsAt (disk.IsArtifact cache) disk now →
      GrowsAt (disk.IsArtifact cache) now (transpiler.compileInto always summary source now).2 :=
    fun _ source _ hnow => h.places.growsAt_attempt_now hcache hnow always source
  rw [Transpiler.compileFolder_eq, visit_eq_foldlM hstep h.tree h.unwanted (reached_root h.lookUp_folder)
    (.refl h.tree), foldlM_compileInto]

end Disk

end Template
