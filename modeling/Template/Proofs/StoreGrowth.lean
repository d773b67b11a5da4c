import Template.Proofs.FolderWalk

/-! # What storing a file leaves

Whatever comes of storing a file, the disk has new directories and at most one file that is new or has
other contents, the one at the path. If it is stored, it is found there.
-/

namespace Template

namespace Disk

variable {disk made after : Disk} {dir place : Location} {names : List Text} {path : Path}
  {written wider : Location → Prop} {contents : Contents} {time : Time}

theorem GrowsAt.mono (h : GrowsAt written disk after) (hwider : ∀ place, written place → wider place) :
    GrowsAt wider disk after :=
  ⟨h.toGrows, fun place hplace => h.others place fun hwritten => hplace (hwider place hwritten)⟩

/-- Nothing is written where only directories are made. -/
abbrev Nowhere : Location → Prop := fun _ => False

theorem admitDirectory_growsAt (htree : disk.IsTree) (h : disk.admitDirectory path = .ok after) :
    GrowsAt Nowhere disk after := by
  cases hlocate : disk.locate path with
  | error error =>
    rw [admitDirectory_of_error hlocate] at h
    cases h
  | ok place =>
    cases hnode : disk.node? place with
    | none =>
      rw [admitDirectory_of_none hlocate hnode] at h
      cases h
      refine ⟨.put htree hlocate (by simp [hnode]) fun _ => hnode, fun other _ => ?_⟩
      rw [node?_put]
      split
      case isTrue heq => exact .inr ⟨heq ▸ hnode, rfl⟩
      case isFalse => exact .inl rfl
    | some node =>
      cases node with
      | directory =>
        rw [admitDirectory_of_directory hlocate hnode] at h
        cases h
        exact .refl htree
      | file contents time =>
        rw [admitDirectory_of_file hlocate hnode] at h
        cases h

/-- A directory is made on a disk, or not. -/
theorem admit_growsAt (hmade : GrowsAt Nowhere disk made) (path : Path) :
    GrowsAt Nowhere disk (match made.admitDirectory path with
      | .ok after => (after, .ok ())
      | .error error => (made, .error error) : Disk × Except IoError Unit).1 := by
  cases hadmit : made.admitDirectory path with
  | ok after => exact hmade.trans (admitDirectory_growsAt hmade.tree hadmit)
  | error error => exact hmade

theorem ensureComponents_growsAt (htree : disk.IsTree) (absolute : Bool) (around : List Text) :
    GrowsAt Nowhere disk (disk.ensureComponents absolute around).1 := by
  induction around with
  | nil => exact .refl htree
  | cons part around ih =>
    by_cases hfound : disk.createDirectory (inside absolute (part :: around)) = .error .notFound
    case neg =>
      rw [ensureComponents_of_found hfound]
      exact admit_growsAt (.refl htree) _
    case pos =>
      rw [ensureComponents_of_notFound hfound]
      cases hmade : disk.ensureComponents absolute around with
      | mk made outcome =>
        rw [hmade] at ih
        cases outcome with
        | error error => exact ih
        | ok => exact admit_growsAt ih _

theorem ensureParent_growsAt (htree : disk.IsTree) (path : Path) :
    GrowsAt Nowhere disk (match path.parent? with
      | some parent => disk.ensureDirectory parent
      | none => (disk, .ok ())).1 := by
  cases path.parent? with
  | none => exact .refl htree
  | some parent => exact ensureComponents_growsAt htree _ _

/-- Storing a file, in two steps: the directories around it are made, and then it gets its place. -/
theorem store_cases (htree : disk.IsTree) (path : Path) (contents : Contents) (time : Time) :
    ∃ made, GrowsAt Nowhere disk made ∧
      ((∃ error, disk.store path contents time = (made, .error error)) ∨
        ∃ place, made.fileLocation path = .ok place ∧
          disk.store path contents time = (made.put place (.file contents time), .ok ())) := by
  refine ⟨_, ensureParent_growsAt htree path, ?_⟩
  unfold store
  dsimp only
  split
  case h_1 => exact .inl ⟨_, rfl⟩
  case h_2 =>
    split
    case h_1 => exact .inl ⟨_, rfl⟩
    case h_2 place hplace => exact .inr ⟨place, hplace, rfl⟩

theorem store_growsAt (htree : disk.IsTree) (path : Path) (contents : Contents) (time : Time) :
    GrowsAt (· = disk.placeOf path) disk (disk.store path contents time).1 := by
  obtain ⟨made, hmade, ⟨error, hstore⟩ | ⟨place, hlocation, hstore⟩⟩ := store_cases htree path contents time
  · rw [hstore]
    exact hmade.mono fun _ => False.elim
  · rw [hstore]
    obtain ⟨hlocate, hfree⟩ := fileLocation_eq_ok hlocation
    have hplace : place = disk.placeOf path := (locate_eq_ok hlocate).2.trans (hmade.placeOf path)
    refine (hmade.mono fun _ => False.elim).trans ⟨.put hmade.tree hlocate hfree nofun, fun other hother => .inl ?_⟩
    rw [node?_put, if_neg fun heq => hother (heq.trans hplace)]

/-! ## A file that has been stored -/

/-- A path that leads through directories keeps leading where it leads. -/
theorem follow_ok_of_directories
    (h : ∀ dir, disk.node? dir = some .directory → after.node? dir = some .directory)
    (hfollow : disk.follow dir names = .ok place) : after.follow dir names = .ok place := by
  induction names generalizing dir with
  | nil => exact hfollow
  | cons name names ih =>
    unfold follow at hfollow ⊢
    rw [List.foldlM_cons] at hfollow ⊢
    cases hstep : disk.step dir name with
    | error error =>
      rw [hstep] at hfollow
      cases hfollow
    | ok next =>
      have hdir := (step_eq_ok hstep).1
      have hsame : after.step dir name = .ok next := by
        rw [step_of_directory hdir] at hstep
        rw [step_of_directory (h dir hdir), hstep]
      rw [hstep] at hfollow
      rw [hsame]
      exact ih hfollow

/-- A file leaves the path to it as it is. -/
theorem locate_put (hlocate : disk.locate path = .ok place)
    (hplace : disk.node? place ≠ some .directory) (node : DiskNode) :
    (disk.put place node).locate path = .ok place := by
  have hfits := (locate_eq_ok hlocate).1
  rw [locate_of_fits hfits] at hlocate ⊢
  refine follow_ok_of_directories (fun dir hdir => ?_) hlocate
  have hne : dir ≠ place := fun heq => hplace (heq ▸ hdir)
  rw [node?_put, if_neg hne, hdir]

/-- No file has a place where the path asks for a directory. -/
theorem endsInSlash_of_fileLocation (h : disk.fileLocation path = .ok place) :
    path.endsInSlash = false := by
  unfold fileLocation at h
  rw [(fileLocation_eq_ok h).1] at h
  change (if path.endsInSlash || decide (disk.node? place = some .directory) then _ else _) = _ at h
  split at h
  case isTrue => cases h
  case isFalse hfile => exact (Bool.or_eq_false_iff.1 (Bool.eq_false_iff.2 hfile)).1

/-- What has been stored at a path is found there. -/
theorem exists_lookUp_of_store (h : disk.store path contents time = (after, .ok ())) :
    ∃ place, after.lookUp path = .ok (place, .file contents time) := by
  unfold store at h
  dsimp only at h
  split at h
  case h_1 => cases h
  case h_2 =>
    split at h
    case h_1 => cases h
    case h_2 place hplace =>
      cases h
      obtain ⟨hlocate, hfree⟩ := fileLocation_eq_ok hplace
      refine ⟨place, ?_⟩
      rw [lookUp_of_ok (locate_put hlocate hfree _), node?_put, if_pos rfl,
        endsInSlash_of_fileLocation hplace]
      rfl

end Disk

end Template
