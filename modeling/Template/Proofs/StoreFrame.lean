import Template.Proofs.StoreGrowth

/-! # Storing one file and another

Whether a file can be stored depends on the places that its path leads through. Files that are stored next
to it, or where its path does not lead, make no difference.
-/

namespace Template

namespace Disk

variable {disk after : Disk} {path : Path} {contents contents' : Contents} {time time' : Time}

/-! ## Storing files next to each other -/

section

variable {dir : Path} {name next : Text} (hname : Path.IsSegment name) (hdot : name ≠ ['.'])
  (hdotdot : name ≠ ['.', '.']) (hnext : Path.IsSegment next) (hdot' : next ≠ ['.']) (hdotdot' : next ≠ ['.', '.'])
  (hne : name ≠ next)

include hname hdot hdotdot hne

/-- A file in the directory of another one does not take its place. -/
theorem fileLocation_put (hput : Grows disk (disk.put (next :: disk.placeOf dir) (.file contents time)))
    (hfound : disk.locate (dir.join ⟨name⟩) ≠ .error .notFound) :
    (disk.put (next :: disk.placeOf dir) (.file contents time)).fileLocation (dir.join ⟨name⟩) =
      disk.fileLocation (dir.join ⟨name⟩) := by
  unfold fileLocation
  rw [hput.locate hfound]
  cases hlocate : disk.locate (dir.join ⟨name⟩) with
  | error error => rfl
  | ok place =>
    have hapart : place ≠ next :: disk.placeOf dir := by
      rw [(locate_eq_ok hlocate).2, placeOf_join hname hdot hdotdot]
      exact fun heq => hne (List.cons.inj heq).1
    have hnode : (disk.put (next :: disk.placeOf dir) (.file contents time)).node? place = disk.node? place := by
      rw [node?_put, if_neg hapart]
    change (if _ || decide (_ = _) then _ else _) = if _ || decide (_ = _) then _ else _
    rw [hnode]

include hnext hdot' hdotdot'

/-- Whether a file can be stored does not change when another one is stored in the same directory. -/
theorem store_after_store (htree : disk.IsTree)
    (hleaves : disk.LeavesDirectories (disk.start dir.isAbsolute) dir.segments) :
    ((disk.store (dir.join ⟨next⟩) contents' time').1.store (dir.join ⟨name⟩) contents time).2 =
      (disk.store (dir.join ⟨name⟩) contents time).2 := by
  -- The directories are made for the first file; for the second one nothing is left to be made.
  obtain ⟨made, outcome, hprepares⟩ := exists_prepares htree hleaves
  have hagain := hprepares.again
  have hmade := hagain made (.refl hprepares.grows.tree)
  rw [store_join hnext hdot', store_join hname hdot, store_join hname hdot, hprepares.first]
  cases outcome with
  | error error =>
    dsimp only
    rw [hmade]
  | ok =>
    dsimp only
    cases hlocation : made.fileLocation (dir.join ⟨next⟩) with
    | error error =>
      dsimp only
      rw [hmade]
    | ok place =>
      obtain ⟨hlocate, hfree⟩ := fileLocation_eq_ok hlocation
      obtain rfl : place = next :: made.placeOf dir := by
        rw [(locate_eq_ok hlocate).2, placeOf_join hnext hdot' hdotdot']
      have hput : Grows made (made.put (next :: made.placeOf dir) (.file contents' time')) :=
        .put hprepares.grows.tree hlocate hfree nofun
      have hfound := locate_join_ne hname hprepares.grows.tree hprepares.leaves (hprepares.directory rfl)
      dsimp only
      rw [hagain _ hput]
      dsimp only
      rw [fileLocation_put hname hdot hdotdot hne hput hfound]
      cases made.fileLocation (dir.join ⟨name⟩) <;> rfl

end

/-! ## Storing takes no time -/

theorem clock_admitDirectory (h : disk.admitDirectory path = .ok after) : after.clock = disk.clock := by
  cases hlocate : disk.locate path with
  | error error =>
    rw [admitDirectory_of_error hlocate] at h
    cases h
  | ok place =>
    cases hnode : disk.node? place with
    | none =>
      rw [admitDirectory_of_none hlocate hnode] at h
      cases h
      rfl
    | some node =>
      cases node with
      | directory =>
        rw [admitDirectory_of_directory hlocate hnode] at h
        cases h
        rfl
      | file contents time =>
        rw [admitDirectory_of_file hlocate hnode] at h
        cases h

theorem clock_ensureComponents (disk : Disk) (absolute : Bool) (around : List Text) :
    (disk.ensureComponents absolute around).1.clock = disk.clock := by
  induction around with
  | nil => rfl
  | cons part around ih =>
    by_cases hfound : disk.createDirectory (inside absolute (part :: around)) = .error .notFound
    case neg =>
      rw [ensureComponents_of_found hfound]
      cases hadmit : disk.admitDirectory (inside absolute (part :: around)) with
      | ok after => exact clock_admitDirectory hadmit
      | error error => rfl
    case pos =>
      rw [ensureComponents_of_notFound hfound]
      cases hmade : disk.ensureComponents absolute around with
      | mk made outcome =>
        rw [hmade] at ih
        cases outcome with
        | error error => exact ih
        | ok =>
          dsimp only
          cases hadmit : made.admitDirectory (inside absolute (part :: around)) with
          | ok after => exact (clock_admitDirectory hadmit).trans ih
          | error error => exact ih

theorem clock_store (disk : Disk) (path : Path) (contents : Contents) (time : Time) :
    (disk.store path contents time).1.clock = disk.clock := by
  unfold store
  cases path.parent? with
  | none =>
    dsimp only
    cases disk.fileLocation path with
    | error error => rfl
    | ok place => rfl
  | some parent =>
    have hmade : (disk.ensureDirectory parent).1.clock = disk.clock := clock_ensureComponents ..
    dsimp only
    cases hensure : disk.ensureDirectory parent with
    | mk made outcome =>
      rw [hensure] at hmade
      cases outcome with
      | error error => exact hmade
      | ok =>
        dsimp only
        cases made.fileLocation path with
        | error error => exact hmade
        | ok place => exact hmade

/-! ## Disks that agree where a path leads -/

/-- From a directory the names lead through some places only. -/
def LeadsThrough (places : Location → Prop) (dir : Location) (names : List Text) : Prop :=
  ∀ front, front <+: names → places (front.foldl enter dir)

/-- Two disks have the same working directory, and the same at some places. -/
structure AgreesOn (places : Location → Prop) (home : Location) (disk other : Disk) : Prop where
  workdir : disk.workdir = home
  workdir' : other.workdir = home
  node : ∀ place, places place → other.node? place = disk.node? place

section

variable {other : Disk} {places : Location → Prop} {home top place : Location} {names around : List Text}
  {absolute : Bool} {dir : Path} {name : Text}

/-- Where names lead that leave only directories that are there: through directories, and then down. -/
theorem LeavesDirectories.suffix (htree : disk.IsTree) (h : disk.LeavesDirectories top names)
    (htop : disk.node? top ≠ some .directory) : top <:+ names.foldl enter top := by
  induction names generalizing top with
  | nil => exact List.suffix_refl _
  | cons name names ih =>
    obtain ⟨hup, hrest⟩ := h
    have hname : name ≠ ['.', '.'] := fun heq => htop (hup heq)
    refine (suffix_enter top hname).trans (ih hrest fun hdirectory => htop ?_)
    unfold enter at hdirectory
    rw [if_neg hname] at hdirectory
    split at hdirectory
    case isTrue => exact hdirectory
    case isFalse => exact (htree.around hdirectory).2

theorem LeavesDirectories.leadsThrough (htree : disk.IsTree) (h : disk.LeavesDirectories top names)
    (hdirectories : ∀ place, disk.node? place = some .directory → places place)
    (hdown : ∀ place, place <:+ names.foldl enter top → places place) : LeadsThrough places top names := by
  rintro front ⟨back, rfl⟩
  by_cases hdirectory : disk.node? (front.foldl enter top) = some .directory
  · exact hdirectories _ hdirectory
  · apply hdown
    rw [List.foldl_append]
    exact ((leavesDirectories_append front back).1 h).2.suffix htree hdirectory

namespace AgreesOn

variable (h : AgreesOn places home disk other)

include h

theorem start (absolute : Bool) : other.start absolute = disk.start absolute := by
  unfold Disk.start
  rw [h.workdir, h.workdir']

theorem put (place : Location) (node : DiskNode) :
    AgreesOn places home (disk.put place node) (other.put place node) := by
  refine ⟨h.workdir, h.workdir', fun found hfound => ?_⟩
  rw [node?_put, node?_put, h.node found hfound]

theorem follow (hnames : LeadsThrough places top names) : other.follow top names = disk.follow top names := by
  induction names generalizing top with
  | nil => rfl
  | cons name names ih =>
    have hstep : other.step top name = disk.step top name := by
      unfold step
      rw [h.node top (hnames [] List.nil_prefix)]
    unfold Disk.follow at ih ⊢
    rw [List.foldlM_cons, List.foldlM_cons, hstep]
    cases hnext : disk.step top name with
    | error error => rfl
    | ok next =>
      obtain ⟨-, rfl⟩ := step_eq_ok hnext
      exact ih fun front hfront => hnames (name :: front) (List.cons_prefix_cons.2 ⟨rfl, hfront⟩)

variable (hpath : LeadsThrough places (disk.start path.isAbsolute) path.segments)

include hpath

theorem locate : other.locate path = disk.locate path := by
  by_cases hfits : Fits path
  · rw [locate_of_fits hfits, locate_of_fits hfits, h.start]
    exact h.follow hpath
  · obtain ⟨error, -, hfails⟩ := exists_error_of_not_fits hfits
    rw [hfails, hfails]

theorem node_of_locate (hlocate : disk.locate path = .ok place) : other.node? place = disk.node? place := by
  rw [(locate_eq_ok hlocate).2]
  exact h.node _ (hpath _ (List.prefix_refl _))

theorem fileLocation : other.fileLocation path = disk.fileLocation path := by
  unfold Disk.fileLocation
  rw [h.locate hpath]
  cases hlocate : disk.locate path with
  | error error => rfl
  | ok place =>
    change (if _ || decide (_ = _) then _ else _) = if _ || decide (_ = _) then _ else _
    rw [h.node_of_locate hpath hlocate]

/-- On both disks the same directory is made, or none for the same reason. -/
theorem admitDirectory :
    let admitted (disk : Disk) : Disk × Except IoError Unit := match disk.admitDirectory path with
      | .ok after => (after, .ok ())
      | .error error => (disk, .error error)
    (admitted other).2 = (admitted disk).2 ∧ AgreesOn places home (admitted disk).1 (admitted other).1 := by
  have hlocate' := h.locate hpath
  dsimp only
  cases hlocate : disk.locate path with
  | error error =>
    rw [hlocate] at hlocate'
    rw [admitDirectory_of_error hlocate, admitDirectory_of_error hlocate']
    exact ⟨rfl, h⟩
  | ok place =>
    have hnode' := h.node_of_locate hpath hlocate
    rw [hlocate] at hlocate'
    cases hnode : disk.node? place with
    | none =>
      rw [hnode] at hnode'
      rw [admitDirectory_of_none hlocate hnode, admitDirectory_of_none hlocate' hnode']
      exact ⟨rfl, h.put place .directory⟩
    | some node =>
      rw [hnode] at hnode'
      cases node with
      | directory =>
        rw [admitDirectory_of_directory hlocate hnode, admitDirectory_of_directory hlocate' hnode']
        exact ⟨rfl, h⟩
      | file contents time =>
        rw [admitDirectory_of_file hlocate hnode, admitDirectory_of_file hlocate' hnode']
        exact ⟨rfl, h⟩

omit hpath

/-- On both disks the same directories are made. -/
theorem ensureComponents (hsegments : ∀ s ∈ around, Path.IsSegment s)
    (haround : LeadsThrough places (disk.start absolute) around.reverse) :
    (other.ensureComponents absolute around).2 = (disk.ensureComponents absolute around).2 ∧
      AgreesOn places home (disk.ensureComponents absolute around).1 (other.ensureComponents absolute around).1 := by
  induction around with
  | nil => exact ⟨rfl, h⟩
  | cons part around ih =>
    have hinside : ∀ made : Disk, made.start absolute = disk.start absolute →
        LeadsThrough places (made.start (inside absolute (part :: around)).isAbsolute)
          (inside absolute (part :: around)).segments := by
      intro made hstart
      rw [isAbsolute_inside hsegments, segments_inside hsegments, hstart]
      exact haround
    have hsame : other.createDirectory (inside absolute (part :: around)) = .error .notFound ↔
        disk.createDirectory (inside absolute (part :: around)) = .error .notFound := by
      rw [createDirectory_eq_notFound, createDirectory_eq_notFound, h.locate (hinside disk rfl)]
    by_cases hfound : disk.createDirectory (inside absolute (part :: around)) = .error .notFound
    case neg =>
      rw [ensureComponents_of_found hfound, ensureComponents_of_found (mt hsame.1 hfound)]
      exact h.admitDirectory (hinside disk rfl)
    case pos =>
      rw [ensureComponents_of_notFound hfound, ensureComponents_of_notFound (hsame.2 hfound)]
      have hprefix : around.reverse <+: (part :: around).reverse := by
        rw [List.reverse_cons]
        exact List.prefix_append _ _
      obtain ⟨houtcome, hmade⟩ := ih (fun s hs => hsegments s (List.mem_cons_of_mem _ hs))
        fun front hfront => haround front (hfront.trans hprefix)
      cases hdisk : disk.ensureComponents absolute around with
      | mk made outcome =>
        cases hother : other.ensureComponents absolute around with
        | mk made' outcome' =>
          rw [hdisk, hother] at houtcome hmade
          dsimp only at houtcome hmade
          subst houtcome
          cases outcome' with
          | error error => exact ⟨rfl, hmade⟩
          | ok =>
            refine hmade.admitDirectory (hinside made ?_)
            unfold Disk.start
            rw [hmade.workdir, h.workdir]

/-- On both disks the same comes of storing a file. -/
theorem store (hname : Path.IsSegment name) (hdot : name ≠ ['.'])
    (hdirectories : LeadsThrough places (disk.start dir.isAbsolute) dir.components)
    (hfile : LeadsThrough places (disk.start dir.isAbsolute) (dir.segments ++ [name])) :
    (other.store (dir.join ⟨name⟩) contents time).2 = (disk.store (dir.join ⟨name⟩) contents time).2 := by
  have hsegments : ∀ s ∈ dir.components.reverse, Path.IsSegment s :=
    fun s hs => Path.isSegment_of_mem_components (List.mem_reverse.1 hs)
  obtain ⟨houtcome, hmade⟩ := h.ensureComponents hsegments (by rwa [List.reverse_reverse])
  rw [store_join hname hdot, store_join hname hdot]
  cases hdisk : disk.ensureComponents dir.isAbsolute dir.components.reverse with
  | mk made outcome =>
    cases hother : other.ensureComponents dir.isAbsolute dir.components.reverse with
    | mk made' outcome' =>
      rw [hdisk, hother] at houtcome hmade
      dsimp only at houtcome hmade
      subst houtcome
      cases outcome' with
      | error error => rfl
      | ok =>
        have hpath : LeadsThrough places (made.start (dir.join ⟨name⟩).isAbsolute) (dir.join ⟨name⟩).segments := by
          unfold Disk.start
          rw [Path.isAbsolute_join hname, Path.segments_join hname, hmade.workdir, ← h.workdir]
          exact hfile
        dsimp only
        rw [hmade.fileLocation hpath]
        cases made.fileLocation (dir.join ⟨name⟩) <;> rfl

end AgreesOn

end

end Disk

end Template
