import Mathlib.Data.List.Infix
import Template.Proofs.StoreFrame

/-! # Storing past a place

Storing a file puts something only where its path leads: directories on the way, and the file at the end. So
what is found at a place that the path leads past stays as it is.
-/

namespace Template

namespace Disk

variable {disk after last : Disk} {place found : Location} {path dir : Path} {name : Text} {names around : List Text}
  {absolute : Bool} {contents : Contents} {time : Time}

instance (places : Location → Prop) [DecidablePred places] (start : Location) (names : List Text) :
    Decidable (LeadsThrough places start names) :=
  decidable_of_iff (∀ front ∈ names.inits, places (front.foldl enter start)) (by
    simp only [List.mem_inits, LeadsThrough])

/-- Neither the end of the path nor a directory on the way is at the place. -/
def LeadsPast (disk : Disk) (path : Path) (place : Location) : Prop :=
  LeadsThrough (· ≠ place) (disk.start path.isAbsolute) path.components

instance (disk : Disk) (path : Path) (place : Location) : Decidable (disk.LeadsPast path place) :=
  inferInstanceAs (Decidable (LeadsThrough ..))

/-- On a later disk every directory is one, and at the place there is what was there. -/
structure Keeps (place : Location) (disk after : Disk) : Prop where
  workdir : after.workdir = disk.workdir
  directory : ∀ {dir}, disk.node? dir = some .directory → after.node? dir = some .directory
  node : after.node? place = disk.node? place

namespace Keeps

theorem refl (place : Location) (disk : Disk) : Keeps place disk disk := ⟨rfl, id, rfl⟩

theorem trans (h : Keeps place disk after) (h' : Keeps place after last) : Keeps place disk last where
  workdir := h'.workdir.trans h.workdir
  directory hdir := h'.directory (h.directory hdir)
  node := h'.node.trans h.node

theorem put (hne : found ≠ place) (hfree : disk.node? found ≠ some .directory) (node : DiskNode) :
    Keeps place disk (disk.put found node) where
  workdir := rfl
  directory {dir} hdir := by
    have hother : dir ≠ found := fun heq => hfree (heq ▸ hdir)
    rw [node?_put, if_neg hother, hdir]
  node := by rw [node?_put, if_neg hne.symm]

/-- A path to the place leads there as before. -/
theorem lookUp (h : Keeps place disk after) (hlocate : disk.locate path = .ok place) :
    after.lookUp path = disk.lookUp path := by
  have hlocate' : after.locate path = .ok place := by
    have hfits := (locate_eq_ok hlocate).1
    rw [locate_of_fits hfits] at hlocate ⊢
    have hstart : after.start path.isAbsolute = disk.start path.isAbsolute := by rw [start, start, h.workdir]
    rw [hstart]
    exact follow_ok_of_directories (fun _ => h.directory) hlocate
  rw [lookUp_of_ok hlocate, lookUp_of_ok hlocate', h.node]

end Keeps

theorem keeps_admitDirectory (hne : disk.placeOf path ≠ place) (h : disk.admitDirectory path = .ok after) :
    Keeps place disk after := by
  cases hlocate : disk.locate path with
  | error error =>
    rw [admitDirectory_of_error hlocate] at h
    cases h
  | ok found =>
    obtain rfl : found = disk.placeOf path := (locate_eq_ok hlocate).2
    cases hnode : disk.node? (disk.placeOf path) with
    | none =>
      rw [admitDirectory_of_none hlocate hnode] at h
      cases h
      exact .put hne (by rw [hnode]; exact nofun) .directory
    | some node =>
      cases node with
      | directory =>
        rw [admitDirectory_of_directory hlocate hnode] at h
        cases h
        exact .refl place disk
      | file contents time =>
        rw [admitDirectory_of_file hlocate hnode] at h
        cases h

/-- A directory is made on a later disk, or not. -/
theorem Keeps.afterDirectory (h : Keeps place disk after) (hne : after.placeOf path ≠ place) :
    Keeps place disk (match after.admitDirectory path with
      | .ok last => (last, .ok ())
      | .error error => (after, .error error) : Disk × Except IoError Unit).1 := by
  cases hadmit : after.admitDirectory path with
  | ok last => exact h.trans (keeps_admitDirectory hne hadmit)
  | error error => exact h

/-- The directories of a path are made past the place. -/
theorem keeps_ensureComponents (hsegments : ∀ s ∈ around, Path.IsSegment s)
    (hpast : LeadsThrough (· ≠ place) (disk.start absolute) around.reverse) :
    Keeps place disk (disk.ensureComponents absolute around).1 := by
  induction around with
  | nil => exact .refl place disk
  | cons part around ih =>
    have hinside : ∀ made : Disk, made.workdir = disk.workdir →
        made.placeOf (inside absolute (part :: around)) ≠ place := by
      intro made hworkdir
      rw [Disk.placeOf, isAbsolute_inside hsegments, segments_inside hsegments, start, hworkdir]
      exact hpast _ (List.prefix_refl _)
    by_cases hfound : disk.createDirectory (inside absolute (part :: around)) = .error .notFound
    case neg =>
      rw [ensureComponents_of_found hfound]
      exact (Keeps.refl place disk).afterDirectory (hinside disk rfl)
    case pos =>
      have haround : around.reverse <+: (part :: around).reverse := by
        rw [List.reverse_cons]
        exact List.prefix_append _ _
      have hmade := ih (fun s hs => hsegments s (List.mem_cons_of_mem _ hs))
        fun front hfront => hpast front (hfront.trans haround)
      rw [ensureComponents_of_notFound hfound]
      cases hensure : disk.ensureComponents absolute around with
      | mk made outcome =>
        rw [hensure] at hmade
        cases outcome with
        | error error => exact hmade
        | ok => exact hmade.afterDirectory (hinside made hmade.workdir)

/-- A file is stored past the place. -/
theorem keeps_store (hname : Path.IsSegment name) (hdot : name ≠ ['.'])
    (hpast : disk.LeadsPast (dir.join ⟨name⟩) place) (contents : Contents) (time : Time) :
    Keeps place disk (disk.store (dir.join ⟨name⟩) contents time).1 := by
  unfold LeadsPast at hpast
  rw [Path.isAbsolute_join hname] at hpast
  have haround : LeadsThrough (· ≠ place) (disk.start dir.isAbsolute) dir.components.reverse.reverse := by
    rw [List.reverse_reverse]
    rw [Path.components_join hname hdot] at hpast
    exact fun front hfront => hpast front (hfront.trans (List.prefix_append _ _))
  have hsegments : ∀ s ∈ dir.components.reverse, Path.IsSegment s :=
    fun s hs => Path.isSegment_of_mem_components (List.mem_reverse.1 hs)
  have hmade := keeps_ensureComponents hsegments haround
  rw [store_join hname hdot]
  cases hensure : disk.ensureComponents dir.isAbsolute dir.components.reverse with
  | mk made outcome =>
    rw [hensure] at hmade
    cases outcome with
    | error error => exact hmade
    | ok =>
      dsimp only
      cases hlocation : made.fileLocation (dir.join ⟨name⟩) with
      | error error => exact hmade
      | ok found =>
        obtain ⟨hlocate, hfree⟩ := fileLocation_eq_ok hlocation
        have hfound : found ≠ place := by
          rw [(locate_eq_ok hlocate).2, placeOf_eq_components, start, hmade.workdir, Path.isAbsolute_join hname]
          exact hpast _ (List.prefix_refl _)
        exact hmade.trans (.put hfound hfree _)

end Disk

end Template
