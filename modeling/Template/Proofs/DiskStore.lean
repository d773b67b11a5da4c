import Template.Proofs.DiskTree

/-! # Storing on a disk

Storing a file makes the directories around it that are missing, and may fail after that. What it
leaves is enough for the same step to end in the same way once more, and then nothing is made.
-/

namespace Template

namespace Disk

variable {disk after last : Disk} {place : Location} {path : Path} {absolute : Bool} {around : List Text}
  {error : IoError} {outcome : Except IoError Unit} {node : DiskNode}

theorem lookUp_of_error (h : disk.locate path = .error error) : disk.lookUp path = .error error := by
  rw [lookUp, h]
  rfl

theorem lookUp_of_ok (h : disk.locate path = .ok place) : disk.lookUp path =
    match disk.node? place with
    | none => .error .notFound
    | some .directory => .ok (place, .directory)
    | some (.file contents time) =>
      if path.endsInSlash then .error .notADirectory else .ok (place, .file contents time) := by
  rw [lookUp, h]
  rfl

theorem lookUp_eq_ok (h : disk.lookUp path = .ok (place, node)) :
    disk.locate path = .ok place ∧ disk.node? place = some node := by
  cases hlocate : disk.locate path with
  | error error =>
    rw [lookUp_of_error hlocate] at h
    cases h
  | ok found =>
    rw [lookUp_of_ok hlocate] at h
    split at h
    case h_1 => cases h
    case h_2 hnode =>
      cases h
      exact ⟨rfl, hnode⟩
    case h_3 hnode =>
      split at h
      · cases h
      · cases h
        exact ⟨rfl, hnode⟩

theorem lookUp_of_directory (hlocate : disk.locate path = .ok place) (hnode : disk.node? place = some .directory) :
    disk.lookUp path = .ok (place, .directory) := by
  rw [lookUp_of_ok hlocate, hnode]

theorem isDirectory_iff : disk.isDirectory path = true ↔
    ∃ place, disk.locate path = .ok place ∧ disk.node? place = some .directory := by
  constructor
  · intro h
    unfold isDirectory at h
    split at h
    case h_1 place hlookUp => exact ⟨place, lookUp_eq_ok hlookUp⟩
    case h_2 => cases h
  · rintro ⟨place, hlocate, hnode⟩
    rw [isDirectory, lookUp_of_directory hlocate hnode]

theorem Grows.isDirectory (h : Grows disk after) (hdirectory : disk.isDirectory path = true) :
    after.isDirectory path = true := by
  rw [isDirectory_iff] at hdirectory ⊢
  obtain ⟨place, hlocate, hnode⟩ := hdirectory
  exact ⟨place, h.locate_ok hlocate, h.directory hnode⟩

/-! ## Making one directory -/

theorem createDirectory_of_error (h : disk.locate path = .error error) : disk.createDirectory path = .error error := by
  rw [createDirectory, h]
  rfl

theorem createDirectory_of_ok (h : disk.locate path = .ok place) : disk.createDirectory path =
    match disk.node? place with
    | some _ => .error .alreadyExists
    | none => .ok (disk.put place .directory) := by
  rw [createDirectory, h]
  rfl

theorem createDirectory_eq_notFound : disk.createDirectory path = .error .notFound ↔
    disk.locate path = .error .notFound := by
  cases hlocate : disk.locate path with
  | error error =>
    rw [createDirectory_of_error hlocate]
    simp
  | ok place =>
    rw [createDirectory_of_ok hlocate]
    cases disk.node? place <;> simp

/-- Where a path leads nowhere, no directory is made. -/
theorem admitDirectory_of_error (h : disk.locate path = .error error) : disk.admitDirectory path = .error error := by
  have hnone : disk.isDirectory path = false := by
    rw [Bool.eq_false_iff, ne_eq, isDirectory_iff, h]
    simp
  rw [admitDirectory, createDirectory_of_error h, hnone]
  rfl

theorem admitDirectory_of_none (h : disk.locate path = .ok place) (hnode : disk.node? place = none) :
    disk.admitDirectory path = .ok (disk.put place .directory) := by
  rw [admitDirectory, createDirectory_of_ok h, hnode]

theorem admitDirectory_of_directory (h : disk.locate path = .ok place) (hnode : disk.node? place = some .directory) :
    disk.admitDirectory path = .ok disk := by
  have hdirectory : disk.isDirectory path = true := isDirectory_iff.2 ⟨place, h, hnode⟩
  rw [admitDirectory, createDirectory_of_ok h, hnode]
  exact if_pos hdirectory

theorem admitDirectory_of_file {contents : Contents} {time : Time} (h : disk.locate path = .ok place)
    (hnode : disk.node? place = some (.file contents time)) : disk.admitDirectory path = .error .alreadyExists := by
  have hnone : disk.isDirectory path = false := by
    rw [Bool.eq_false_iff, ne_eq, isDirectory_iff, h]
    simp [hnode]
  rw [admitDirectory, createDirectory_of_ok h, hnode]
  exact if_neg (by simp [hnone])

/-! ## Making the directories of a path -/

/-- Why no directory can be made at a path, where the directories around it are there. -/
inductive Bars (disk : Disk) (path : Path) : IoError → Prop where
  | lost {error : IoError} (hlocate : disk.locate path = .error error) (hfound : error ≠ .notFound) :
    Bars disk path error
  | taken {place : Location} {contents : Contents} {time : Time} (hlocate : disk.locate path = .ok place)
      (hnode : disk.node? place = some (.file contents time)) : Bars disk path .alreadyExists

theorem Bars.admitDirectory (h : disk.Bars path error) : disk.admitDirectory path = .error error := by
  cases h with
  | lost hlocate => exact admitDirectory_of_error hlocate
  | taken hlocate hnode => exact admitDirectory_of_file hlocate hnode

theorem Bars.createDirectory_ne (h : disk.Bars path error) : disk.createDirectory path ≠ .error .notFound := by
  rw [ne_eq, createDirectory_eq_notFound]
  cases h with
  | lost hlocate hfound => simpa [hlocate] using hfound
  | taken hlocate => simp [hlocate]

theorem Bars.grows (h : disk.Bars path error) (hgrows : Grows disk after) : after.Bars path error := by
  cases h with
  | lost hlocate hfound => exact .lost (hgrows.locate_error hlocate hfound) hfound
  | taken hlocate hnode =>
    obtain ⟨contents, time, hafter⟩ := hgrows.file hnode
    exact .taken (hgrows.locate_ok hlocate) hafter

/-- The path with the given components, innermost first. -/
abbrev inside (absolute : Bool) (around : List Text) : Path := Path.ofComponents absolute around.reverse

theorem ensureComponents_of_found {part : Text}
    (h : disk.createDirectory (inside absolute (part :: around)) ≠ .error .notFound) :
    disk.ensureComponents absolute (part :: around) =
      match disk.admitDirectory (inside absolute (part :: around)) with
      | .ok disk => (disk, .ok ())
      | .error error => (disk, .error error) := by
  cases hcreate : disk.createDirectory (inside absolute (part :: around)) with
  | ok made =>
    rw [ensureComponents, hcreate]
    rfl
  | error error =>
    rw [ensureComponents, hcreate]
    cases error with
    | notFound => exact absurd hcreate h
    | _ => rfl

theorem ensureComponents_of_notFound {part : Text}
    (h : disk.createDirectory (inside absolute (part :: around)) = .error .notFound) :
    disk.ensureComponents absolute (part :: around) =
      match disk.ensureComponents absolute around with
      | (disk, .error error) => (disk, .error error)
      | (disk, .ok ()) =>
        match disk.admitDirectory (inside absolute (part :: around)) with
        | .ok disk => (disk, .ok ())
        | .error error => (disk, .error error) := by
  rw [ensureComponents, h]
  cases disk.ensureComponents absolute around with
  | mk after outcome => cases outcome <;> rfl

/-- A step of making the directories of a path has led to a disk and an outcome: new directories along the
    path, the path leading to a directory on success, and a bar that is still there on failure. -/
structure Ensures (disk : Disk) (absolute : Bool) (around : List Text) (after : Disk)
    (outcome : Except IoError Unit) : Prop where
  grows : Grows disk after
  made : ∀ place, after.node? place = disk.node? place ∨
    disk.node? place = none ∧ after.node? place = some .directory ∧
      place <:+ around.reverse.foldl enter (disk.start absolute)
  done : outcome = .ok () →
    after.follow (disk.start absolute) around.reverse = .ok (around.reverse.foldl enter (disk.start absolute)) ∧
      after.node? (around.reverse.foldl enter (disk.start absolute)) = some .directory ∧
      (around ≠ [] → Fits (inside absolute around))
  barred : ∀ error, outcome = .error error → after.Bars (inside absolute around) error

section

variable (hsegments : ∀ s ∈ around, Path.IsSegment s)

include hsegments

theorem segments_inside : (inside absolute around).segments = around.reverse :=
  Path.segments_ofComponents fun s hs => hsegments s (List.mem_reverse.1 hs)

theorem isAbsolute_inside : (inside absolute around).isAbsolute = absolute :=
  Path.isAbsolute_ofComponents fun s hs => hsegments s (List.mem_reverse.1 hs)

theorem locate_inside (hfits : Fits (inside absolute around)) :
    disk.locate (inside absolute around) = disk.follow (disk.start absolute) around.reverse := by
  rw [locate_of_fits hfits, segments_inside hsegments, isAbsolute_inside hsegments]

end

section

variable {part : Text} (hsegments : ∀ s ∈ part :: around, Path.IsSegment s)

include hsegments

theorem Fits.prefix_inside (hfits : Fits (inside absolute (part :: around))) (hne : around ≠ []) :
    Fits (inside absolute around) := by
  have haround : ∀ s ∈ around.reverse, Path.IsSegment s :=
    fun s hs => hsegments s (List.mem_cons_of_mem _ (List.mem_reverse.1 hs))
  apply hfits.of_prefix
  · unfold inside
    rw [List.reverse_cons]
    exact Path.prefix_ofComponents haround part
  · exact Path.ofComponents_text_ne_nil haround (by simpa using hne)

theorem locate_inside_cons (hfits : Fits (inside absolute (part :: around))) :
    disk.locate (inside absolute (part :: around)) =
      disk.follow (disk.start absolute) around.reverse >>= fun dir => disk.step dir part := by
  rw [locate_inside hsegments hfits, List.reverse_cons, follow_concat]

theorem inside_text_ne_nil : (inside absolute (part :: around)).text ≠ [] :=
  Path.ofComponents_text_ne_nil (fun s hs => hsegments s (List.mem_reverse.1 hs)) (by simp)

end

/-- The directory at a path, where the ones around it are there. -/
theorem ensures_admitDirectory {part : Text} (hsegments : ∀ s ∈ part :: around, Path.IsSegment s) (htree : disk.IsTree)
    (hfound : disk.locate (inside absolute (part :: around)) ≠ .error .notFound) :
    match disk.admitDirectory (inside absolute (part :: around)) with
    | .ok made => disk.Ensures absolute (part :: around) made (.ok ())
    | .error error => disk.Ensures absolute (part :: around) disk (.error error) := by
  have hrefl := Grows.refl htree
  cases hlocate : disk.locate (inside absolute (part :: around)) with
  | error error =>
    rw [admitDirectory_of_error hlocate]
    have hbars : disk.Bars (inside absolute (part :: around)) error :=
      .lost hlocate fun hnone => hfound (hnone ▸ hlocate)
    exact ⟨hrefl, fun _ => .inl rfl, nofun, fun _ h => by cases h; exact hbars⟩
  | ok place =>
    obtain ⟨hfits, -⟩ := locate_eq_ok hlocate
    have hfollow : disk.follow (disk.start absolute) (part :: around).reverse = .ok place := by
      rw [← locate_inside hsegments hfits, hlocate]
    have hplace := follow_eq_ok hfollow
    have hthere : ∀ made : Disk, Grows disk made → made.node? place = some .directory →
        made.follow (disk.start absolute) (part :: around).reverse =
            .ok ((part :: around).reverse.foldl enter (disk.start absolute)) ∧
          made.node? ((part :: around).reverse.foldl enter (disk.start absolute)) = some .directory ∧
          (part :: around ≠ [] → Fits (inside absolute (part :: around))) := by
      intro made hgrows hmade
      have hfound' : disk.follow (disk.start absolute) (part :: around).reverse ≠ .error .notFound := by
        rw [hfollow]
        exact nofun
      rw [← hplace, hgrows.follow hfound', hfollow]
      exact ⟨rfl, hmade, fun _ => hfits⟩
    cases hnode : disk.node? place with
    | none =>
      rw [admitDirectory_of_none hlocate hnode]
      have hgrows : Grows disk (disk.put place .directory) := .put htree hlocate (by simp [hnode]) fun _ => hnode
      have hmade : (disk.put place .directory).node? place = some .directory := by rw [node?_put, if_pos rfl]
      refine ⟨hgrows, fun other => ?_, fun _ => hthere _ hgrows hmade, nofun⟩
      rw [node?_put]
      split
      case isTrue heq =>
        rw [heq, ← hplace]
        exact .inr ⟨hnode, rfl, List.suffix_refl _⟩
      case isFalse => exact .inl rfl
    | some node =>
      cases node with
      | directory =>
        rw [admitDirectory_of_directory hlocate hnode]
        exact ⟨hrefl, fun _ => .inl rfl, fun _ => hthere _ hrefl hnode, nofun⟩
      | file contents time =>
        rw [admitDirectory_of_file hlocate hnode]
        have hbars : disk.Bars (inside absolute (part :: around)) .alreadyExists := .taken hlocate hnode
        exact ⟨hrefl, fun _ => .inl rfl, nofun, fun _ h => by cases h; exact hbars⟩

theorem suffix_enter {name : Text} (dir : Location) (hname : name ≠ ['.', '.']) : dir <:+ enter dir name := by
  unfold enter
  split
  · exact List.suffix_refl _
  · exact List.suffix_cons _ _

/-- New directories, and then the one inside them. -/
theorem Ensures.trans {part : Text} (h : disk.Ensures absolute around after (.ok ()))
    (h' : after.Ensures absolute (part :: around) last outcome) (hpart : part ≠ ['.', '.']) :
    disk.Ensures absolute (part :: around) last outcome := by
  have hstart := h.grows.start absolute
  have hsuffix : ∀ place, place <:+ around.reverse.foldl enter (disk.start absolute) →
      place <:+ (part :: around).reverse.foldl enter (disk.start absolute) := by
    intro place hplace
    rw [List.reverse_cons, List.foldl_append, List.foldl_cons, List.foldl_nil]
    exact hplace.trans (suffix_enter _ hpart)
  refine ⟨h.grows.trans h'.grows, fun place => ?_, hstart ▸ h'.done, h'.barred⟩
  have hmade' := h'.made place
  rw [hstart] at hmade'
  rcases h.made place with hsame | ⟨hnone, hdirectory, hplace⟩
  · rw [hsame] at hmade'
    exact hmade'
  · right
    exact ⟨hnone, h'.grows.directory hdirectory, hsuffix place hplace⟩

/-- What bars the directories around a place bars the place. -/
theorem Ensures.passOn {part : Text} (h : disk.Ensures absolute around after (.error error))
    (hsegments : ∀ s ∈ part :: around, Path.IsSegment s) (htree : disk.IsTree)
    (hleaves : disk.LeavesDirectories (disk.start absolute) around.reverse) (hne : around ≠ [])
    (hfits : Fits (inside absolute (part :: around)))
    (hfound : disk.locate (inside absolute (part :: around)) = .error .notFound) (hpart : part ≠ ['.', '.']) :
    disk.Ensures absolute (part :: around) after (.error error) := by
  have haround : ∀ s ∈ around, Path.IsSegment s := fun s hs => hsegments s (List.mem_cons_of_mem _ hs)
  refine ⟨h.grows, fun place => ?_, nofun, ?_⟩
  · rcases h.made place with hsame | ⟨hnone, hdirectory, hplace⟩
    · exact .inl hsame
    · rw [List.reverse_cons, List.foldl_append, List.foldl_cons, List.foldl_nil]
      exact .inr ⟨hnone, hdirectory, hplace.trans (suffix_enter _ hpart)⟩
  intro error' herror
  cases herror
  have hfits' := hfits.prefix_inside hsegments hne
  cases h.barred error rfl with
  | lost hlocate hne =>
    rw [locate_inside haround hfits'] at hlocate
    have hlocate' : after.locate (inside absolute (part :: around)) = .error error := by
      rw [locate_inside_cons hsegments hfits, hlocate]
      rfl
    exact .lost hlocate' hne
  | @taken place contents time hlocate hnode =>
    -- A file around the place is there already, and then nothing is missing.
    have hnode' : disk.node? place = some (.file contents time) := by
      rcases h.made place with hsame | ⟨-, hdirectory, -⟩
      · rw [← hsame, hnode]
      · rw [hnode] at hdirectory
        cases hdirectory
    have hleaves' : disk.LeavesDirectories (disk.start (inside absolute around).isAbsolute)
        (inside absolute around).segments := by
      rw [isAbsolute_inside haround, segments_inside haround]
      exact hleaves
    have hlocate' := h.grows.locate_of_node htree hleaves' hlocate hnode'
    rw [locate_inside haround hfits'] at hlocate'
    rw [locate_inside_cons hsegments hfits, hlocate'] at hfound
    change disk.step place part = _ at hfound
    rw [step, hnode'] at hfound
    cases hfound

/-- The directories of a path are made as far as they can be. -/
theorem ensures_ensureComponents (hsegments : ∀ s ∈ around, Path.IsSegment s) (htree : disk.IsTree)
    (hleaves : disk.LeavesDirectories (disk.start absolute) around.reverse) :
    disk.Ensures absolute around (disk.ensureComponents absolute around).1
      (disk.ensureComponents absolute around).2 := by
  induction around with
  | nil =>
    have hrefl := Grows.refl htree
    exact ⟨hrefl, fun _ => .inl rfl, fun _ => ⟨rfl, htree.start absolute, fun hne => absurd rfl hne⟩, nofun⟩
  | cons part around ih =>
    rw [List.reverse_cons, leavesDirectories_append] at hleaves
    obtain ⟨hfront, hup, -⟩ := hleaves
    have ih := ih (fun s hs => hsegments s (List.mem_cons_of_mem _ hs)) hfront
    by_cases hfound : disk.locate (inside absolute (part :: around)) = .error .notFound
    case neg =>
      rw [ensureComponents_of_found (by rwa [ne_eq, createDirectory_eq_notFound])]
      have hadmit := ensures_admitDirectory hsegments htree hfound
      cases hmade : disk.admitDirectory (inside absolute (part :: around)) with
      | ok made =>
        rw [hmade] at hadmit
        exact hadmit
      | error error =>
        rw [hmade] at hadmit
        exact hadmit
    case pos =>
      rw [ensureComponents_of_notFound (createDirectory_eq_notFound.2 hfound)]
      have hfits : Fits (inside absolute (part :: around)) := by
        apply Classical.byContradiction
        intro hfits
        obtain ⟨error, hne, hfails⟩ := exists_error_of_not_fits hfits
        rw [hfails] at hfound
        exact hne (inside_text_ne_nil hsegments) (Except.error.inj hfound)
      -- What leads up leaves a directory that is there, so it cannot be what is missing.
      have hpart : part ≠ ['.', '.'] := by
        intro hpart
        rw [locate_inside_cons hsegments hfits, htree.follow_of_directory hfront (hup hpart)] at hfound
        change disk.step _ part = _ at hfound
        rw [step_of_directory (hup hpart)] at hfound
        split at hfound <;> cases hfound
      cases hmade : disk.ensureComponents absolute around with
      | mk after outcome =>
        rw [hmade] at ih
        cases outcome with
        | error error =>
          have hne : around ≠ [] := by
            intro hnil
            rw [hnil] at hmade
            cases hmade
          exact ih.passOn hsegments htree hfront hne hfits hfound hpart
        | ok =>
          obtain ⟨hfollow, hdirectory, -⟩ := ih.done rfl
          have hfound' : after.locate (inside absolute (part :: around)) ≠ .error .notFound := by
            rw [locate_inside_cons hsegments hfits, ih.grows.start, hfollow]
            change after.step _ part ≠ _
            rw [step_of_directory hdirectory]
            split <;> exact nofun
          have hadmit := ensures_admitDirectory hsegments ih.grows.tree hfound'
          dsimp only
          cases hlast : after.admitDirectory (inside absolute (part :: around)) with
          | ok made =>
            rw [hlast] at hadmit
            exact ih.trans hadmit hpart
          | error error =>
            rw [hlast] at hadmit
            exact ih.trans hadmit hpart

/-- On what a first attempt has left, and on any later disk, making the directories of a path ends as it
    did and makes nothing. -/
theorem ensureComponents_again (hsegments : ∀ s ∈ around, Path.IsSegment s) (htree : disk.IsTree)
    (hleaves : disk.LeavesDirectories (disk.start absolute) around.reverse)
    (hlater : Grows (disk.ensureComponents absolute around).1 last) :
    last.ensureComponents absolute around = (last, (disk.ensureComponents absolute around).2) := by
  cases around with
  | nil => rfl
  | cons part around =>
    have hensures := ensures_ensureComponents hsegments htree hleaves
    cases hmade : disk.ensureComponents absolute (part :: around) with
    | mk after outcome =>
      rw [hmade] at hensures hlater
      cases outcome with
      | error error =>
        have hbars := (hensures.barred error rfl).grows hlater
        rw [ensureComponents_of_found hbars.createDirectory_ne, hbars.admitDirectory]
      | ok =>
        obtain ⟨hfollow, hdirectory, hfits⟩ := hensures.done rfl
        have hlocate : after.locate (inside absolute (part :: around)) =
            .ok ((part :: around).reverse.foldl enter (disk.start absolute)) := by
          rw [locate_inside hsegments (hfits (List.cons_ne_nil _ _)), hensures.grows.start, hfollow]
        have hlocate' := hlater.locate_ok hlocate
        have hfound : last.createDirectory (inside absolute (part :: around)) ≠ .error .notFound := by
          rw [ne_eq, createDirectory_eq_notFound, hlocate']
          exact nofun
        rw [ensureComponents_of_found hfound, admitDirectory_of_directory hlocate' (hlater.directory hdirectory)]

/-! ## Storing a file -/

theorem placeOf_eq_components (disk : Disk) (dir : Path) :
    disk.placeOf dir = dir.components.foldl enter (disk.start dir.isAbsolute) := by
  rw [placeOf, foldl_enter_components]

/-- What comes of making a directory and those around it, once; no later attempt makes any. -/
structure Prepares (disk : Disk) (dir : Path) (made : Disk) (outcome : Except IoError Unit) : Prop where
  grows : Grows disk made
  places (place : Location) : made.node? place = disk.node? place ∨
    disk.node? place = none ∧ made.node? place = some .directory ∧ place <:+ disk.placeOf dir
  first : disk.ensureComponents dir.isAbsolute dir.components.reverse = (made, outcome)
  again (last : Disk) : Grows made last →
    last.ensureComponents dir.isAbsolute dir.components.reverse = (last, outcome)
  directory : outcome = .ok () → made.node? (made.placeOf dir) = some .directory
  leaves : made.LeavesDirectories (made.start dir.isAbsolute) dir.segments

theorem exists_prepares {dir : Path} (htree : disk.IsTree)
    (hleaves : disk.LeavesDirectories (disk.start dir.isAbsolute) dir.segments) :
    ∃ made outcome, disk.Prepares dir made outcome := by
  have hsegments : ∀ s ∈ dir.components.reverse, Path.IsSegment s :=
    fun s hs => Path.isSegment_of_mem_components (List.mem_reverse.1 hs)
  have hcomponents : disk.LeavesDirectories (disk.start dir.isAbsolute) dir.components.reverse.reverse := by
    rw [List.reverse_reverse]
    exact hleaves.components
  have hensures := ensures_ensureComponents hsegments htree hcomponents
  refine ⟨_, _, hensures.grows, fun place => ?_, rfl, fun last => ensureComponents_again hsegments htree hcomponents,
    fun hdone => ?_, ?_⟩
  · have hplace := hensures.made place
    rw [List.reverse_reverse, ← placeOf_eq_components] at hplace
    exact hplace
  · obtain ⟨-, hdirectory, -⟩ := hensures.done hdone
    rw [List.reverse_reverse, ← placeOf_eq_components, ← hensures.grows.placeOf] at hdirectory
    exact hdirectory
  · rw [hensures.grows.start]
    exact hensures.grows.leavesDirectories hleaves

/-- What comes of storing a file at a path, once the directories around it are made. -/
inductive Stores (disk : Disk) (path : Path) (place : Location) (made : Disk) : Prop where
  | barred (error : IoError) (hnow : ∀ contents time, disk.store path contents time = (made, .error error))
      (hagain : ∀ last, Grows made last → ∀ contents time, last.store path contents time = (last, .error error))
  | stored (hlocate : made.locate path = .ok place) (hfree : made.node? place ≠ some .directory)
      (hnow : ∀ contents time, disk.store path contents time = (made.put place (.file contents time), .ok ()))

theorem fileLocation_eq_ok (h : disk.fileLocation path = .ok place) :
    disk.locate path = .ok place ∧ disk.node? place ≠ some .directory := by
  unfold fileLocation at h
  cases hlocate : disk.locate path with
  | error error =>
    rw [hlocate] at h
    cases h
  | ok found =>
    rw [hlocate] at h
    change (if path.endsInSlash || decide (disk.node? found = some .directory) then _ else _) = _ at h
    split at h
    case isTrue => cases h
    case isFalse hfree =>
      cases h
      refine ⟨rfl, fun hdirectory => hfree ?_⟩
      rw [hdirectory]
      simp

section

variable {dir : Path} {name : Text}

variable (hname : Path.IsSegment name) (hdot : name ≠ ['.']) (hdotdot : name ≠ ['.', '.'])

include hname

/-- With its directory there, a file has its place, or its path is too long or otherwise unusable. -/
theorem locate_join_ne (htree : disk.IsTree) (hleaves : disk.LeavesDirectories (disk.start dir.isAbsolute) dir.segments)
    (hdirectory : disk.node? (disk.placeOf dir) = some .directory) :
    disk.locate (dir.join ⟨name⟩) ≠ .error .notFound := by
  by_cases hfits : Fits (dir.join ⟨name⟩)
  · rw [locate_of_fits hfits, Path.segments_join hname, Path.isAbsolute_join hname, follow_concat,
      htree.follow_of_directory hleaves hdirectory]
    change disk.step (disk.placeOf dir) name ≠ _
    rw [step_of_directory hdirectory]
    split <;> exact nofun
  · obtain ⟨error, hne, hfails⟩ := exists_error_of_not_fits hfits
    rw [hfails]
    exact fun h => hne (Path.join_text_ne_nil hname) (Except.error.inj h)

/-- What has the name in the directory is where the path leads. -/
theorem locate_join_of_node (htree : disk.IsTree)
    (hleaves : disk.LeavesDirectories (disk.start dir.isAbsolute) dir.segments) (hdot : name ≠ ['.'])
    (hdotdot : name ≠ ['.', '.']) (hfits : Fits (dir.join ⟨name⟩))
    (hnode : disk.node? (name :: disk.placeOf dir) = some node) :
    disk.locate (dir.join ⟨name⟩) = .ok (name :: disk.placeOf dir) := by
  obtain ⟨hlength, hdirectory⟩ := htree.around hnode
  rw [locate_of_fits hfits, Path.segments_join hname, Path.isAbsolute_join hname, follow_concat,
    htree.follow_of_directory hleaves hdirectory]
  change disk.step (disk.placeOf dir) name = _
  rw [step_of_directory hdirectory, if_neg fun hlong => Nat.not_le_of_lt hlong.2.2 hlength.length, enter, if_neg hdot,
    if_neg hdotdot]

/-- A file that has no place in its directory has none later. -/
theorem fileLocation_again (htree : disk.IsTree)
    (hleaves : disk.LeavesDirectories (disk.start dir.isAbsolute) dir.segments)
    (hdirectory : disk.node? (disk.placeOf dir) = some .directory) (hlater : Grows disk last)
    (h : disk.fileLocation (dir.join ⟨name⟩) = .error error) : last.fileLocation (dir.join ⟨name⟩) = .error error := by
  have hlocate := hlater.locate (locate_join_ne hname htree hleaves hdirectory)
  unfold fileLocation at h ⊢
  rw [hlocate]
  cases hplace : disk.locate (dir.join ⟨name⟩) with
  | error error' =>
    rw [hplace] at h
    exact h
  | ok place =>
    rw [hplace] at h
    change (if (dir.join ⟨name⟩).endsInSlash || decide (disk.node? place = some .directory) then _ else _) = _ at h
    change (if (dir.join ⟨name⟩).endsInSlash || decide (last.node? place = some .directory) then _ else _) = _
    rw [Path.endsInSlash_join hname, Bool.false_or] at h ⊢
    split at h
    case isTrue hnode =>
      rw [hlater.directory (of_decide_eq_true hnode), decide_eq_true rfl, if_pos rfl]
      exact h
    case isFalse => cases h

include hdot

theorem store_join (contents : Contents) (time : Time) : disk.store (dir.join ⟨name⟩) contents time =
    match disk.ensureComponents dir.isAbsolute dir.components.reverse with
    | (made, .error error) => (made, .error error)
    | (made, .ok ()) =>
      match made.fileLocation (dir.join ⟨name⟩) with
      | .error error => (made, .error error)
      | .ok place => (made.put place (.file contents time), .ok ()) := by
  have hsegments : ∀ s ∈ dir.components, Path.IsSegment s := fun s hs => Path.isSegment_of_mem_components hs
  unfold store
  rw [Path.parent?_join hname hdot]
  dsimp only
  rw [ensureDirectory, Path.components_ofComponents, Path.isAbsolute_ofComponents hsegments]
  cases disk.ensureComponents dir.isAbsolute dir.components.reverse with
  | mk made outcome => cases outcome <;> rfl

include hdotdot

theorem placeOf_join (disk : Disk) : disk.placeOf (dir.join ⟨name⟩) = name :: disk.placeOf dir := by
  rw [placeOf, Path.segments_join hname, Path.isAbsolute_join hname, List.foldl_append, List.foldl_cons, List.foldl_nil,
    enter, if_neg hdot, if_neg hdotdot]
  rfl

/-- Storing a file makes the directories around it, and then it is stored, or what bars it stays. -/
theorem exists_stores (htree : disk.IsTree)
    (hleaves : disk.LeavesDirectories (disk.start dir.isAbsolute) dir.segments) :
    ∃ made, Grows disk made ∧
      (∀ place, made.node? place = disk.node? place ∨
        disk.node? place = none ∧ made.node? place = some .directory ∧ place <:+ disk.placeOf dir) ∧
      disk.Stores (dir.join ⟨name⟩) (name :: disk.placeOf dir) made := by
  obtain ⟨made, outcome, hprepares⟩ := exists_prepares htree hleaves
  have hfirst := hprepares.first
  refine ⟨made, hprepares.grows, hprepares.places, ?_⟩
  cases outcome with
  | error error =>
    refine .barred error (fun contents time => ?_) fun last hlater contents time => ?_
    · rw [store_join hname hdot, hfirst]
    · rw [store_join hname hdot, hprepares.again last hlater]
  | ok =>
    cases hlocation : made.fileLocation (dir.join ⟨name⟩) with
    | error error =>
      refine .barred error (fun contents time => ?_) fun last hlater contents time => ?_
      · rw [store_join hname hdot, hfirst]
        dsimp only
        rw [hlocation]
      · have hlater' := fileLocation_again hname hprepares.grows.tree hprepares.leaves (hprepares.directory rfl) hlater
          hlocation
        rw [store_join hname hdot, hprepares.again last hlater]
        dsimp only
        rw [hlater']
    | ok place =>
      obtain ⟨hlocate, hfree⟩ := fileLocation_eq_ok hlocation
      have hplace := (locate_eq_ok hlocate).2
      rw [placeOf_join hname hdot hdotdot, hprepares.grows.placeOf] at hplace
      rw [hplace] at hlocate hfree hlocation
      refine .stored hlocate hfree fun contents time => ?_
      rw [store_join hname hdot, hfirst]
      dsimp only
      rw [hlocation]

end

end Disk

end Template
