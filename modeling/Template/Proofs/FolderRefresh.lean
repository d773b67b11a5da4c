import Mathlib.Data.List.Basic
import Template.Proofs.FolderWalk
import Template.Transpiler.Folder

/-! # Compiling a template of a folder once more

Whether a template has to be compiled is decided by its time and by what is at the place of its compiled
form. A first attempt leaves there what makes a second one end without a write: the compiled form, newer
than the template, or what was there before, and then the second attempt fails as the first did.
-/

namespace Template

namespace Sha256

variable {message : Bytes}

theorem not_mem_hexDigest : '/' ∉ hexDigest message ∧ '.' ∉ hexDigest message := by
  have hdigits : ∀ n < 256, '/' ∉ Text.padded 16 2 n ∧ '.' ∉ Text.padded 16 2 n := by decide +kernel
  unfold hexDigest
  simp only [List.mem_flatMap, not_exists, not_and]
  exact ⟨fun b _ => (hdigits b.toNat b.toNat_lt).1, fun b _ => (hdigits b.toNat b.toNat_lt).2⟩

theorem hexDigest_ne_nil : hexDigest message ≠ [] := by
  have hdigits : ∀ n < 256, Text.padded 16 2 n ≠ [] := by decide +kernel
  have hbytes : digest message ≠ [] := by simp [digest, State.words, bigEndian, List.range_succ]
  obtain ⟨b, hb⟩ := List.exists_mem_of_ne_nil _ hbytes
  intro hnil
  exact hdigits b.toNat b.toNat_lt (List.flatMap_eq_nil_iff.1 hnil b hb)

end Sha256

namespace Cache

variable {cache : Cache}

/-- The file name of the compiled form of a template. -/
def artifactName (cache : Cache) (source : Path) : Text := source.digest ++ '.' :: cache.extension

theorem compiledPath_eq (cache : Cache) (source : Path) :
    cache.compiledPath source = cache.dir.join ⟨cache.artifactName source⟩ := rfl

theorem isSegment_artifactName (hslash : '/' ∉ cache.extension) (source : Path) :
    Path.IsSegment (cache.artifactName source) := by
  have hdigest : '/' ∉ source.digest := Sha256.not_mem_hexDigest.1
  constructor
  · exact List.append_ne_nil_of_right_ne_nil _ (List.cons_ne_nil _ _)
  · simp [artifactName, hdigest, hslash]

/-- The name starts with a digit of the digest. -/
theorem artifactName_ne_cons (source : Path) (rest : Text) : cache.artifactName source ≠ '.' :: rest := by
  have hdot : '.' ∉ source.digest := Sha256.not_mem_hexDigest.2
  have hne : source.digest ≠ [] := Sha256.hexDigest_ne_nil
  unfold artifactName
  cases hdigest : source.digest with
  | nil => exact absurd hdigest hne
  | cons c digest =>
    rw [hdigest] at hdot
    rw [List.cons_append]
    intro h
    exact hdot ((List.cons.inj h).1 ▸ List.mem_cons_self)

/-- The digest of the template is read off the name. -/
theorem digest_eq_of_artifactName {source other : Path} (h : cache.artifactName source = cache.artifactName other) :
    source.digest = other.digest :=
  List.append_cancel_right h

/-- The only extension of the name is the one of compiled forms. -/
theorem extension_mem_of_hasExtension {extensions : List Text} {source : Path} (hdot : '.' ∉ cache.extension)
    (h : hasExtension extensions (cache.artifactName source) = true) : cache.extension ∈ extensions := by
  unfold hasExtension at h
  obtain ⟨extension, hmem, hstem⟩ := List.any_eq_true.1 h
  split at hstem
  case h_1 stem hstrip =>
    rw [Bool.and_eq_true, beq_iff_eq] at hstem
    obtain ⟨front, hfront⟩ := List.getLast?_eq_some_iff.1 hstem.2
    have hname : source.digest ++ '.' :: cache.extension = front ++ '.' :: extension := by
      have hsuffix := Text.stripSuffix?_eq_some hstrip
      rw [hfront, List.append_assoc, List.singleton_append] at hsuffix
      exact hsuffix
    have hdigest : '.' ∉ source.digest := Sha256.not_mem_hexDigest.2
    exact ((List.append_cons_inj_of_notMem hdigest hdot).1 hname).2.2 ▸ hmem
  case h_2 => cases hstem

end Cache

namespace Disk

variable {disk now after last : Disk} {cache : Cache} {transpiler : Transpiler} {source other folder : Path}
  {wanted : Text → Bool} {depth : Nat} {node : DiskNode}

/-! ## The steps of a template -/

theorem modifiedAt_of_directory {path : Path} {place : Location} (h : disk.lookUp path = .ok (place, .directory)) :
    disk.modifiedAt path = .ok disk.clock := by
  rw [modifiedAt, h]
  rfl

theorem modifiedAt_of_file {path : Path} {place : Location} {contents : Contents} {time : Time}
    (h : disk.lookUp path = .ok (place, .file contents time)) : disk.modifiedAt path = .ok time := by
  rw [modifiedAt, h]
  rfl

/-- A file that is wanted keeps its time, whatever is written elsewhere. -/
theorem modifiedAt_of_mem_templates {written : Location → Prop} {root : Location} (htree : disk.IsTree)
    (hunwanted : ∀ name dir, written (name :: dir) → root <:+ dir → wanted name = false)
    (hreached : disk.Reached written root folder) (hmem : source ∈ disk.templates wanted depth folder)
    (hnow : GrowsAt written disk now) : now.modifiedAt source = disk.modifiedAt source := by
  obtain ⟨hsame, hfile⟩ := lookUp_of_mem_templates htree hunwanted hreached hmem
  unfold modifiedAt
  rw [hsame now hnow]
  cases hlookUp : disk.lookUp source with
  | error error => rfl
  | ok found =>
    obtain ⟨place, node⟩ := found
    cases node with
    | directory => exact absurd hlookUp (hfile place)
    | file contents time => rfl

/-- Whether a template has to be compiled, its compiled form being at a path. -/
def isStale (disk : Disk) (source compiled : Path) : Except IoError Bool :=
  if disk.isPresent compiled then do
    let sourceTime ← disk.modifiedAt source
    let compiledTime ← disk.modifiedAt compiled
    pure (decide (compiledTime ≤ sourceTime))
  else pure true

/-- The code of a template. -/
def codeOf (disk : Disk) (transpiler : Transpiler) (source : Path) : Except TranspileError Text := do
  let text ← (disk.readText source).mapError .io
  transpiler.render text

/-- A template that has code has a time. -/
theorem exists_modifiedAt {code : Text} (h : disk.codeOf transpiler source = .ok code) :
    ∃ time, disk.modifiedAt source = .ok time := by
  unfold codeOf readText at h
  cases hlookUp : disk.lookUp source with
  | error error =>
    rw [hlookUp] at h
    cases h
  | ok found =>
    obtain ⟨place, node⟩ := found
    cases node with
    | directory => exact ⟨_, modifiedAt_of_directory hlookUp⟩
    | file contents time => exact ⟨_, modifiedAt_of_file hlookUp⟩

theorem isStale_apply (cache : Cache) (source : Path) (disk : Disk) :
    (cache.isStale source : FilesT (StateM Disk) Bool) disk =
      ((disk.isStale source (cache.compiledPath source)).mapError .io, disk) := by
  have hpresent : (liftM (Files.isPresent (cache.compiledPath source) : StateM Disk Bool) :
      FilesT (StateM Disk) Bool) disk = (.ok (disk.isPresent (cache.compiledPath source)), disk) := rfl
  have hmodified : ∀ path, (FilesT.io (Files.modifiedAt path) : FilesT (StateM Disk) Time) disk =
      ((disk.modifiedAt path).mapError .io, disk) := fun _ => rfl
  unfold Cache.isStale isStale
  refine (Run.bind_apply_ok hpresent).trans ?_
  cases disk.isPresent (cache.compiledPath source) with
  | false => rfl
  | true =>
    refine (Run.bind_apply _ _ _).trans ?_
    rw [hmodified]
    cases disk.modifiedAt source with
    | error error => rfl
    | ok sourceTime =>
      refine (Run.bind_apply _ _ _).trans ?_
      rw [hmodified]
      cases disk.modifiedAt (cache.compiledPath source) <;> rfl

/-- A template is read, rewritten and stored. -/
theorem compile_apply (hcache : transpiler.cache = some cache) (source : Path) (disk : Disk) :
    (transpiler.compile source : FilesT (StateM Disk) (Option Path)) disk =
      match disk.codeOf transpiler source with
      | .error error => (.error error, disk)
      | .ok code =>
        match disk.store (cache.compiledPath source) (.text code) disk.clock with
        | (after, .error error) => (.error (.io error), after)
        | (after, .ok ()) => (.ok (some (cache.compiledPath source)), after) := by
  have hread : (FilesT.io (Files.readText source) : FilesT (StateM Disk) Text) disk =
      ((disk.readText source).mapError .io, disk) := rfl
  have hwrite : ∀ path text, (FilesT.io (Files.writeText path text) : FilesT (StateM Disk) Unit) disk =
      ((disk.store path (.text text) disk.clock).2.mapError .io, (disk.store path (.text text) disk.clock).1) :=
    fun _ _ => rfl
  unfold codeOf
  rw [Transpiler.compile_of_cache source hcache]
  refine (Run.bind_apply _ _ _).trans ?_
  rw [hread]
  cases disk.readText source with
  | error error => rfl
  | ok text =>
    refine (Run.bind_apply _ _ _).trans ?_
    have hrender : (ExceptT.mk (pure (transpiler.render text)) : FilesT (StateM Disk) Text) disk =
        (transpiler.render text, disk) := rfl
    have hcode : (do
        let text ← (Except.ok text : Except IoError Text).mapError TranspileError.io
        transpiler.render text) = transpiler.render text := rfl
    rw [hrender, hcode]
    cases transpiler.render text with
    | error error => rfl
    | ok code =>
      refine (Run.bind_apply _ _ _).trans ?_
      rw [hwrite]
      dsimp only
      cases disk.store (cache.compiledPath source) (.text code) disk.clock with
      | mk after outcome => cases outcome <;> rfl

/-- What compiling a template, if it has to be, comes to on a disk, and the disk after it. -/
def refresh (disk : Disk) (transpiler : Transpiler) (source : Path) : Except TranspileError Bool × Disk :=
  ((transpiler.refresh false source : FilesT (StateM Disk) Bool).run : StateM Disk _) disk

theorem refresh_apply (hcache : transpiler.cache = some cache) (source : Path) (disk : Disk) :
    disk.refresh transpiler source =
      match disk.isStale source (cache.compiledPath source) with
      | .error error => (.error (.io error), disk)
      | .ok false => (.ok false, disk)
      | .ok true =>
        match disk.codeOf transpiler source with
        | .error error => (.error error, disk)
        | .ok code =>
          match disk.store (cache.compiledPath source) (.text code) disk.clock with
          | (after, .error error) => (.error (.io error), after)
          | (after, .ok ()) => (.ok true, after) := by
  unfold refresh Transpiler.refresh
  rw [if_neg Bool.false_ne_true, Transpiler.compileIfStale_of_cache source hcache]
  refine (Run.bind_apply _ _ _).trans ?_
  rw [isStale_apply]
  cases disk.isStale source (cache.compiledPath source) with
  | error error => rfl
  | ok stale =>
    cases stale with
    | false => rfl
    | true =>
      refine (Run.bind_apply _ _ _).trans ?_
      rw [compile_apply hcache]
      cases disk.codeOf transpiler source with
      | error error => rfl
      | ok code =>
        dsimp only
        cases disk.store (cache.compiledPath source) (.text code) disk.clock with
        | mk after outcome => cases outcome <;> rfl

/-! ## Compiled forms apart from templates -/

/-- The files are older than what is stored from now on. -/
def FilesEarlier (disk : Disk) : Prop :=
  ∀ place contents time, disk.node? place = some (.file contents time) → time < disk.clock

/-- The time of a file. -/
def timeOf : DiskNode → Option Time
  | .directory => none
  | .file _ time => some time

theorem filesEarlier_of_entries (h : ∀ entry ∈ disk.nodes.entries, ∀ time ∈ timeOf entry.2, time < disk.clock) :
    disk.FilesEarlier :=
  fun _ _ _ hnode => h _ (Table.mem_entries_of_find? hnode) _ rfl

/-- The place of the compiled form of a template. -/
def artifactPlace (disk : Disk) (cache : Cache) (source : Path) : Location :=
  cache.artifactName source :: disk.placeOf cache.dir

/-- A compiled form may be stored at the place. -/
def IsArtifact (disk : Disk) (cache : Cache) (place : Location) : Prop :=
  ∃ source, place = disk.artifactPlace cache source

/-- The path of each compiled form leads to a place of its own, and goes on leading there. -/
structure KeepsPlaces (disk : Disk) (cache : Cache) : Prop where
  slash : '/' ∉ cache.extension
  leaves : disk.LeavesDirectories (disk.start cache.dir.isAbsolute) cache.dir.segments

section

variable (h : disk.KeepsPlaces cache) (hnow : Grows disk now)

include h hnow

theorem KeepsPlaces.grows : now.KeepsPlaces cache :=
  ⟨h.slash, by rw [hnow.start]; exact hnow.leavesDirectories h.leaves⟩

/-- What is found at the path of a compiled form is what is at its place. -/
theorem KeepsPlaces.lookUp_artifact {place : Location}
    (hlookUp : now.lookUp (cache.compiledPath source) = .ok (place, node)) :
    Fits (cache.compiledPath source) ∧ place = disk.artifactPlace cache source ∧
      now.node? (disk.artifactPlace cache source) = some node := by
  obtain ⟨hlocate, hnode⟩ := lookUp_eq_ok hlookUp
  obtain ⟨hfits, hplace⟩ := locate_eq_ok hlocate
  have hname := Cache.isSegment_artifactName h.slash source
  rw [Cache.compiledPath_eq, placeOf_join hname (Cache.artifactName_ne_cons source _)
    (Cache.artifactName_ne_cons source _), hnow.placeOf] at hplace
  have hplace' : place = disk.artifactPlace cache source := hplace
  exact ⟨hfits, hplace', hplace' ▸ hnode⟩

theorem KeepsPlaces.lookUp_of_node (hfits : Fits (cache.compiledPath source))
    (hnode : now.node? (disk.artifactPlace cache source) = some node) :
    now.lookUp (cache.compiledPath source) = .ok (disk.artifactPlace cache source, node) := by
  have hname := Cache.isSegment_artifactName h.slash source
  unfold artifactPlace at hnode ⊢
  rw [← hnow.placeOf] at hnode ⊢
  have hlocate := locate_join_of_node hname hnow.tree (h.grows hnow).leaves (Cache.artifactName_ne_cons source _)
    (Cache.artifactName_ne_cons source _) hfits hnode
  rw [Cache.compiledPath_eq, lookUp_of_ok hlocate, hnode]
  cases node with
  | directory => rfl
  | file contents time =>
    rw [Path.endsInSlash_join hname]
    rfl

/-- Where the same is at the place of a compiled form, the same is found. -/
theorem KeepsPlaces.lookUp_again (hlast : Grows disk last)
    (hsame : last.node? (disk.artifactPlace cache source) = now.node? (disk.artifactPlace cache source)) :
    (last.lookUp (cache.compiledPath source)).toOption = (now.lookUp (cache.compiledPath source)).toOption := by
  cases hlookUp : now.lookUp (cache.compiledPath source) with
  | ok found =>
    obtain ⟨hfits, hplace, hnode⟩ := h.lookUp_artifact hnow hlookUp
    rw [h.lookUp_of_node hlast hfits (hsame.trans hnode), ← hplace]
  | error error =>
    cases hlookUp' : last.lookUp (cache.compiledPath source) with
    | error error' => rfl
    | ok found =>
      obtain ⟨hfits, -, hnode⟩ := h.lookUp_artifact hlast hlookUp'
      rw [h.lookUp_of_node hnow hfits (hsame.symm.trans hnode)] at hlookUp
      cases hlookUp

/-- Storing a compiled form changes the place of no other. -/
theorem KeepsPlaces.exists_stores (source : Path) : ∃ made, GrowsAt (disk.IsArtifact cache) now made ∧
    (∀ other, made.node? (disk.artifactPlace cache other) = now.node? (disk.artifactPlace cache other)) ∧
    now.Stores (cache.compiledPath source) (disk.artifactPlace cache source) made := by
  have hname := Cache.isSegment_artifactName h.slash source
  obtain ⟨made, hgrows, hplaces, hstores⟩ := Disk.exists_stores hname (Cache.artifactName_ne_cons source _)
    (Cache.artifactName_ne_cons source _) hnow.tree (h.grows hnow).leaves
  rw [hnow.placeOf] at hplaces hstores
  refine ⟨made, ⟨hgrows, fun place _ => ?_⟩, fun other => ?_, hstores⟩
  · rcases hplaces place with hsame | ⟨hnone, hdirectory, -⟩
    · exact .inl hsame
    · exact .inr ⟨hnone, hdirectory⟩
  · rcases hplaces (disk.artifactPlace cache other) with hsame | ⟨-, -, hsuffix⟩
    · exact hsame
    · have hlength := hsuffix.length_le
      rw [artifactPlace, List.length_cons] at hlength
      omega

/-- Storing a compiled form, once: new directories, and maybe the compiled form. -/
theorem KeepsPlaces.store_grows (source : Path) (contents : Contents) (time : Time) :
    let after := (now.store (cache.compiledPath source) contents time).1
    GrowsAt (disk.IsArtifact cache) now after ∧
      ∀ other, cache.artifactName other ≠ cache.artifactName source →
        after.node? (disk.artifactPlace cache other) = now.node? (disk.artifactPlace cache other) := by
  obtain ⟨made, hmade, hsame, hstores⟩ := h.exists_stores hnow source
  cases hstores with
  | barred error hbarred =>
    rw [hbarred]
    exact ⟨hmade, fun other _ => hsame other⟩
  | stored hlocate hfree hstored =>
    rw [hstored]
    constructor
    · refine hmade.trans ⟨.put hmade.tree hlocate hfree nofun, fun place hplace => .inl ?_⟩
      rw [node?_put, if_neg fun heq => hplace ⟨source, heq⟩]
    · intro other hother
      have hne : disk.artifactPlace cache other ≠ disk.artifactPlace cache source :=
        fun heq => hother (List.cons.inj heq).1
      rw [node?_put, if_neg hne, hsame]

end

/-- Compiled forms have places apart from the files that are wanted below a folder, and the files of the
    disk are older than what is stored from now on. -/
structure Separates (disk : Disk) (cache : Cache) (wanted : Text → Bool) (folder : Path) : Prop where
  tree : disk.IsTree
  earlier : disk.FilesEarlier
  slash : '/' ∉ cache.extension
  leaves : disk.LeavesDirectories (disk.start cache.dir.isAbsolute) cache.dir.segments
  root : disk.lookUp folder = .ok (disk.placeOf folder, .directory)
  unwanted : ∀ source, disk.placeOf folder <:+ disk.placeOf cache.dir → wanted (cache.artifactName source) = false

section

variable (h : disk.Separates cache wanted folder) (hnow : GrowsAt (disk.IsArtifact cache) disk now)

include h

theorem Separates.unwanted_artifact (name : Text) (dir : Location) (hartifact : disk.IsArtifact cache (name :: dir))
    (hroot : disk.placeOf folder <:+ dir) : wanted name = false := by
  obtain ⟨source, hplace⟩ := hartifact
  obtain ⟨rfl, rfl⟩ := List.cons.inj hplace
  exact h.unwanted source hroot

theorem Separates.keepsPlaces : disk.KeepsPlaces cache := ⟨h.slash, h.leaves⟩

theorem Separates.reached : disk.Reached (disk.IsArtifact cache) (disk.placeOf folder) folder := reached_root h.root

include hnow

/-- Compiling any template, once: new directories, and maybe its compiled form. -/
theorem Separates.refresh_grows (hcache : transpiler.cache = some cache) (source : Path) :
    GrowsAt (disk.IsArtifact cache) now (now.refresh transpiler source).2 ∧
      ∀ other, cache.artifactName other ≠ cache.artifactName source →
        (now.refresh transpiler source).2.node? (disk.artifactPlace cache other) =
          now.node? (disk.artifactPlace cache other) := by
  have hrefl : GrowsAt (disk.IsArtifact cache) now now := .refl hnow.tree
  rw [refresh_apply hcache]
  cases now.isStale source (cache.compiledPath source) with
  | error error => exact ⟨hrefl, fun _ _ => rfl⟩
  | ok stale =>
    cases stale with
    | false => exact ⟨hrefl, fun _ _ => rfl⟩
    | true =>
      cases now.codeOf transpiler source with
      | error error => exact ⟨hrefl, fun _ _ => rfl⟩
      | ok code =>
        have hstore := h.keepsPlaces.store_grows hnow.toGrows source (.text code) now.clock
        dsimp only
        cases hresult : now.store (cache.compiledPath source) (.text code) now.clock with
        | mk after outcome =>
          rw [hresult] at hstore
          cases outcome <;> exact hstore

end

section

variable (h : disk.Separates cache wanted folder) (hsource : source ∈ disk.templates wanted depth folder)

include h hsource

/-- A template is found as it was at first. -/
theorem Separates.lookUp_source (hnow : GrowsAt (disk.IsArtifact cache) disk now) :
    now.lookUp source = disk.lookUp source :=
  (lookUp_of_mem_templates h.tree h.unwanted_artifact h.reached hsource).1 now hnow

theorem Separates.modifiedAt_source (hnow : GrowsAt (disk.IsArtifact cache) disk now) :
    now.modifiedAt source = disk.modifiedAt source :=
  modifiedAt_of_mem_templates h.tree h.unwanted_artifact h.reached hsource hnow

theorem Separates.codeOf_source (hnow : GrowsAt (disk.IsArtifact cache) disk now) (transpiler : Transpiler) :
    now.codeOf transpiler source = disk.codeOf transpiler source := by
  unfold codeOf readText
  rw [h.lookUp_source hsource hnow]

theorem Separates.modifiedAt_lt {time : Time} (htime : disk.modifiedAt source = .ok time) : time < disk.clock := by
  have hfile := (lookUp_of_mem_templates h.tree h.unwanted_artifact h.reached hsource).2
  unfold modifiedAt at htime
  cases hlookUp : disk.lookUp source with
  | error error =>
    rw [hlookUp] at htime
    cases htime
  | ok found =>
    obtain ⟨place, node⟩ := found
    cases node with
    | directory => exact absurd hlookUp (hfile place)
    | file contents found =>
      rw [hlookUp] at htime
      cases htime
      exact h.earlier _ _ _ (lookUp_eq_ok hlookUp).2

/-- The template is compared with what is at the place of its compiled form; a directory there counts as
    newer. -/
theorem Separates.isStale_eq (hnow : GrowsAt (disk.IsArtifact cache) disk now) :
    now.isStale source (cache.compiledPath source) =
      match (now.lookUp (cache.compiledPath source)).toOption with
      | none => .ok true
      | some (_, .directory) => (disk.modifiedAt source).map fun _ => false
      | some (_, .file _ compiledTime) =>
        (disk.modifiedAt source).map fun sourceTime => decide (compiledTime ≤ sourceTime) := by
  unfold isStale isPresent
  rw [h.modifiedAt_source hsource hnow]
  cases hlookUp : now.lookUp (cache.compiledPath source) with
  | error error => rfl
  | ok found =>
    obtain ⟨place, node⟩ := found
    cases node with
    | directory =>
      rw [modifiedAt_of_directory hlookUp]
      cases htime : disk.modifiedAt source with
      | error error => rfl
      | ok time =>
        have hlt := Nat.lt_of_lt_of_le (h.modifiedAt_lt hsource htime) hnow.clock
        change Except.ok (decide (now.clock ≤ time)) = .ok false
        rw [decide_eq_false (Nat.not_le_of_lt hlt)]
    | file contents compiledTime =>
      rw [modifiedAt_of_file hlookUp]
      cases disk.modifiedAt source <;> rfl

/-- Where the same is at the place of the compiled form, the same is decided. -/
theorem Separates.isStale_again (hnow : GrowsAt (disk.IsArtifact cache) disk now)
    (hlast : GrowsAt (disk.IsArtifact cache) disk last)
    (hsame : last.node? (disk.artifactPlace cache source) = now.node? (disk.artifactPlace cache source)) :
    last.isStale source (cache.compiledPath source) = now.isStale source (cache.compiledPath source) := by
  rw [h.isStale_eq hsource hnow, h.isStale_eq hsource hlast,
    h.keepsPlaces.lookUp_again hnow.toGrows hlast.toGrows hsame]

/-- A template that has code is in order once a compiled form has been stored. -/
theorem Separates.isStale_of_stored {contents : Contents} {time : Time} {code : Text}
    (hlast : GrowsAt (disk.IsArtifact cache) disk last) (hcode : disk.codeOf transpiler source = .ok code)
    (hfits : Fits (cache.compiledPath source)) (htime : disk.clock ≤ time)
    (hnode : last.node? (disk.artifactPlace cache source) = some (.file contents time)) :
    last.isStale source (cache.compiledPath source) = .ok false := by
  obtain ⟨sourceTime, hsourceTime⟩ := exists_modifiedAt hcode
  have hlt := Nat.lt_of_lt_of_le (h.modifiedAt_lt hsource hsourceTime) htime
  rw [h.isStale_eq hsource hlast, h.keepsPlaces.lookUp_of_node hlast.toGrows hfits hnode,
    hsourceTime]
  change Except.ok (decide (time ≤ sourceTime)) = .ok false
  rw [decide_eq_false (Nat.not_le_of_lt hlt)]

end

/-- On any later disk that has the same at the place of a compiled form, the template is in order if it was
    compiled or in order, and fails as it did before; nothing is written. -/
def Settled (disk : Disk) (transpiler : Transpiler) (cache : Cache) (source : Path)
    (outcome : Except TranspileError Bool) (now : Disk) : Prop :=
  ∀ last, GrowsAt (disk.IsArtifact cache) disk last → Grows now last →
    last.node? (disk.artifactPlace cache source) = now.node? (disk.artifactPlace cache source) →
      last.refresh transpiler source = (outcome.map fun _ => false, last)

/-- Compiling a template settles it. -/
theorem Separates.refresh_settled (h : disk.Separates cache wanted folder) (hcache : transpiler.cache = some cache)
    (hsource : source ∈ disk.templates wanted depth folder) (hnow : GrowsAt (disk.IsArtifact cache) disk now) :
    disk.Settled transpiler cache source (now.refresh transpiler source).1 (now.refresh transpiler source).2 := by
  intro last hlast hlater hsame
  rw [refresh_apply hcache] at hlater hsame ⊢
  rw [refresh_apply hcache]
  -- As long as nothing is stored, the second attempt decides as the first.
  have hagain := h.isStale_again hsource hnow hlast
  cases hdecided : now.isStale source (cache.compiledPath source) with
  | error error =>
    rw [hdecided] at hsame hagain
    rw [hagain hsame]
    rfl
  | ok stale =>
    cases stale with
    | false =>
      rw [hdecided] at hsame hagain
      rw [hagain hsame]
      rfl
    | true =>
      rw [hdecided] at hlater hsame hagain
      rw [h.codeOf_source hsource hnow] at hlater hsame ⊢
      rw [h.codeOf_source hsource hlast]
      cases hcode : disk.codeOf transpiler source with
      | error error =>
        rw [hcode] at hsame
        rw [hagain hsame]
        rfl
      | ok code =>
        rw [hcode] at hlater hsame
        obtain ⟨made, hmade, hkept, hstores⟩ := h.keepsPlaces.exists_stores hnow.toGrows source
        dsimp only at hlater hsame ⊢
        cases hstores with
        | barred error hbarred hbarred' =>
          rw [hbarred] at hlater hsame ⊢
          rw [hagain (hsame.trans (hkept source)), hbarred' last hlater]
          rfl
        | stored hlocate hfree hstored =>
          rw [hstored] at hsame ⊢
          have hnode : last.node? (disk.artifactPlace cache source) = some (.file (.text code) now.clock) := by
            rw [hsame, node?_put, if_pos rfl]
          rw [h.isStale_of_stored hsource hlast hcode (locate_eq_ok hlocate).1 hnow.clock hnode]
          rfl

end Disk

end Template
