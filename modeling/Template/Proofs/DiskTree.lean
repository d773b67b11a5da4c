import Mathlib.Data.List.Induction
import Template.Files.Disk
import Template.Proofs.PathSegments

/-! # Disks as trees

On a disk everything is in a directory, so a path is followed through directories. What is stored
later leaves these where they are: a path keeps leading where it leads, and it keeps failing where it
fails, unless it fails because something is missing.
-/

namespace Template

namespace Table

variable {κ α : Type} [DecidableEq κ] {table : Table κ α} {key : κ} {value : α}

theorem mem_entries_of_find? (h : table.find? key = some value) : (key, value) ∈ table.entries := by
  unfold find? at h
  obtain ⟨entry, hfound, rfl⟩ := Option.map_eq_some_iff.1 h
  have hkey := List.find?_some hfound
  rw [decide_eq_true_eq] at hkey
  rw [← hkey]
  exact List.mem_of_find?_eq_some hfound

theorem mem_entries_iff (hkeys : table.keys.Nodup) : (key, value) ∈ table.entries ↔ table.find? key = some value := by
  refine ⟨fun hmem => ?_, mem_entries_of_find?⟩
  obtain ⟨entries⟩ := table
  unfold keys at hkeys
  unfold find?
  induction entries with
  | nil => cases hmem
  | cons entry entries ih =>
    rw [List.map_cons, List.nodup_cons] at hkeys
    rw [List.find?_cons]
    rcases List.mem_cons.1 hmem with rfl | hmem
    · simp
    · have hne : entry.1 ≠ key := by
        intro heq
        apply hkeys.1
        rw [heq]
        exact List.mem_map_of_mem (f := Prod.fst) hmem
      rw [decide_eq_false hne]
      exact ih hkeys.2 hmem

theorem nodup_keys_insert (hkeys : table.keys.Nodup) (key : κ) (value : α) : (table.insert key value).keys.Nodup := by
  unfold insert erase keys
  rw [List.map_cons, List.nodup_cons]
  constructor
  · simp
  · exact hkeys.sublist (List.filter_sublist.map _)

end Table

namespace Disk

variable {disk after last : Disk} {dir place : Location} {name : Text} {names : List Text} {path : Path}
  {node : DiskNode} {error : IoError}

/-- A name that a file or a directory can have. -/
structure IsName (name : Text) : Prop where
  segment : Path.IsSegment name
  ne_dot : name ≠ ['.']
  ne_dotdot : name ≠ ['.', '.']
  length : Text.byteLength name ≤ nameLimit

/-- Everything on the disk has a name and is in a directory. -/
structure IsTree (disk : Disk) : Prop where
  nodup : disk.nodes.keys.Nodup
  root : disk.node? [] = some .directory
  workdir : disk.node? disk.workdir = some .directory
  around : ∀ {name dir node}, disk.node? (name :: dir) = some node → IsName name ∧ disk.node? dir = some .directory

/-! ## Following names -/

/-- The place that a name leads to from a directory, whatever is on the disk. -/
def enter (dir : Location) (name : Text) : Location :=
  if name = ['.'] then dir else if name = ['.', '.'] then dir.tail else name :: dir

/-- The directory where paths start, absolute ones or the others. -/
def start (disk : Disk) (absolute : Bool) : Location := if absolute then [] else disk.workdir

/-- The place that a path leads to, whatever is on the disk. -/
def placeOf (disk : Disk) (path : Path) : Location := path.segments.foldl enter (disk.start path.isAbsolute)

/-- The place that names lead to from a directory, each through a directory. -/
def follow (disk : Disk) (dir : Location) (names : List Text) : Except IoError Location := names.foldlM disk.step dir

/-- The text of a path can be looked up. -/
structure Fits (path : Path) : Prop where
  zero : '\x00' ∉ path.text
  ne_nil : path.text ≠ []
  length : Text.byteLength path.text < pathLimit

theorem Fits.of_prefix {whole : Path} (h : Fits whole) (hstart : path.text <+: whole.text) (hne : path.text ≠ []) :
    Fits path := by
  obtain ⟨rest, hrest⟩ := hstart
  refine ⟨fun hmem => h.zero (hrest ▸ List.mem_append_left _ hmem), hne, ?_⟩
  have hlength := h.length
  rw [← hrest, Text.byteLength_append] at hlength
  omega

theorem locate_of_fits (h : Fits path) : disk.locate path = disk.follow (disk.start path.isAbsolute) path.segments := by
  unfold locate
  rw [if_neg h.zero, if_neg h.ne_nil, if_neg (Nat.not_le_of_lt h.length)]
  rfl

/-- A path whose text cannot be looked up fails alike on every disk. -/
theorem exists_error_of_not_fits (h : ¬ Fits path) : ∃ error, (path.text ≠ [] → error ≠ .notFound) ∧
    ∀ disk : Disk, disk.locate path = .error error := by
  by_cases hzero : '\x00' ∈ path.text
  · exact ⟨.zeroInPath, fun _ => nofun, fun disk => by rw [locate, if_pos hzero]⟩
  by_cases hnil : path.text = []
  · exact ⟨.notFound, absurd hnil, fun disk => by rw [locate, if_neg hzero, if_pos hnil]⟩
  have hlong : pathLimit ≤ Text.byteLength path.text := by
    apply Nat.le_of_not_lt
    exact fun hlength => h ⟨hzero, hnil, hlength⟩
  exact ⟨.nameTooLong, fun _ => nofun, fun disk => by rw [locate, if_neg hzero, if_neg hnil, if_pos hlong]⟩

theorem follow_append (front back : List Text) :
    disk.follow dir (front ++ back) = disk.follow dir front >>= fun place => disk.follow place back := by
  unfold follow
  rw [List.foldlM_append]

theorem follow_concat (front : List Text) (name : Text) :
    disk.follow dir (front ++ [name]) = disk.follow dir front >>= fun place => disk.step place name := by
  rw [follow_append]
  cases disk.follow dir front with
  | error error => rfl
  | ok place =>
    change (disk.step place name >>= pure) = disk.step place name
    cases disk.step place name <;> rfl

theorem step_of_directory (hdir : disk.node? dir = some .directory) (name : Text) : disk.step dir name =
    if name ≠ ['.'] ∧ name ≠ ['.', '.'] ∧ nameLimit < Text.byteLength name then .error .nameTooLong
    else .ok (enter dir name) := by
  unfold step enter
  rw [hdir]
  grind

theorem step_eq_ok (h : disk.step dir name = .ok place) :
    disk.node? dir = some .directory ∧ place = enter dir name := by
  unfold step at h
  unfold enter
  grind

theorem follow_eq_ok (h : disk.follow dir names = .ok place) : place = names.foldl enter dir := by
  induction names generalizing dir with
  | nil =>
    cases h
    rfl
  | cons name names ih =>
    unfold follow at h
    rw [List.foldlM_cons] at h
    cases hstep : disk.step dir name with
    | error error =>
      rw [hstep] at h
      cases h
    | ok next =>
      rw [hstep] at h
      rw [List.foldl_cons, ← (step_eq_ok hstep).2]
      exact ih h

theorem locate_eq_ok (h : disk.locate path = .ok place) : Fits path ∧ place = disk.placeOf path := by
  by_cases hfits : Fits path
  · rw [locate_of_fits hfits] at h
    exact ⟨hfits, follow_eq_ok h⟩
  · obtain ⟨error, -, hfails⟩ := exists_error_of_not_fits hfits
    rw [hfails] at h
    cases h

/-- What a path leads to is a directory that is there, or it has a name in such a directory. -/
theorem IsTree.follow_cases (htree : disk.IsTree) (hdir : disk.node? dir = some .directory)
    (hnames : ∀ name ∈ names, Path.IsSegment name) (h : disk.follow dir names = .ok place) :
    disk.node? place = some .directory ∨
      ∃ name around, place = name :: around ∧ IsName name ∧ disk.node? around = some .directory := by
  induction names using List.reverseRecOn generalizing place with
  | nil =>
    cases h
    exact .inl hdir
  | append_singleton front name ih =>
    rw [follow_concat] at h
    cases hfront : disk.follow dir front with
    | error error =>
      rw [hfront] at h
      cases h
    | ok around =>
      rw [hfront] at h
      change disk.step around name = .ok place at h
      obtain ⟨haround, rfl⟩ := step_eq_ok h
      by_cases hdot : name = ['.']
      · exact .inl (by rw [enter, if_pos hdot, haround])
      by_cases hdotdot : name = ['.', '.']
      · left
        rw [enter, if_neg hdot, if_pos hdotdot]
        cases around with
        | nil => exact htree.root
        | cons name around => exact (htree.around haround).2
      right
      rw [step_of_directory haround] at h
      refine ⟨name, around, by rw [enter, if_neg hdot, if_neg hdotdot],
        ⟨hnames name (by simp), hdot, hdotdot, ?_⟩, haround⟩
      grind

theorem IsTree.start (htree : disk.IsTree) (absolute : Bool) : disk.node? (disk.start absolute) = some .directory := by
  unfold Disk.start
  split
  · exact htree.root
  · exact htree.workdir

theorem IsTree.locate_cases (htree : disk.IsTree) (h : disk.locate path = .ok place) :
    disk.node? place = some .directory ∨
      ∃ name around, place = name :: around ∧ IsName name ∧ disk.node? around = some .directory := by
  rw [locate_of_fits (locate_eq_ok h).1] at h
  exact htree.follow_cases (htree.start path.isAbsolute) (fun _ hname => Path.isSegment_of_mem hname) h

/-- What is stored where a path leads, and not in the place of a directory, leaves a tree. -/
theorem IsTree.put (htree : disk.IsTree) (h : disk.locate path = .ok place)
    (hplace : disk.node? place ≠ some .directory) (node : DiskNode) : (disk.put place node).IsTree := by
  obtain hdirectory | ⟨name, around, rfl, hname, haround⟩ := htree.locate_cases h
  · exact absurd hdirectory hplace
  have hkept : ∀ dir, disk.node? dir = some .directory →
      (disk.put (name :: around) node).node? dir = some .directory := by
    intro dir hdir
    have hne : dir ≠ name :: around := fun heq => hplace (heq ▸ hdir)
    rw [node?_put, if_neg hne, hdir]
  refine ⟨Table.nodup_keys_insert htree.nodup _ _, hkept _ htree.root, hkept _ htree.workdir, ?_⟩
  intro other dir found hfound
  rw [node?_put] at hfound
  split at hfound
  case isTrue heq =>
    cases heq
    exact ⟨hname, hkept _ haround⟩
  case isFalse =>
    obtain ⟨hother, hdir⟩ := htree.around hfound
    exact ⟨hother, hkept _ hdir⟩

theorem find?_directoriesTo (dir place : Location) :
    (directoriesTo dir).find? place = if place <:+ dir then some .directory else none := by
  induction dir with
  | nil => simp [directoriesTo, Table.find?_insert, List.suffix_nil]
  | cons name dir ih =>
    rw [directoriesTo, Table.find?_insert, ih]
    simp only [List.suffix_cons_iff]
    split <;> simp [*]

/-- A disk without files is a tree. -/
theorem isTree_empty (clock : Time) (hnames : ∀ name ∈ dir, IsName name) : (empty dir clock).IsTree := by
  have hnode : ∀ place, (empty dir clock).node? place = if place <:+ dir then some .directory else none :=
    find?_directoriesTo dir
  refine ⟨?_, ?_, ?_, ?_⟩
  · unfold empty
    clear hnode hnames
    induction dir with
    | nil =>
      have hempty : (Table.empty : Table Location DiskNode).keys.Nodup := List.nodup_nil
      exact Table.nodup_keys_insert hempty _ _
    | cons name dir ih => exact Table.nodup_keys_insert ih _ _
  · rw [hnode, if_pos List.nil_suffix]
  · rw [hnode]
    exact if_pos (List.suffix_refl dir)
  · intro name around node hfound
    rw [hnode] at hfound
    split at hfound
    case isTrue hsuffix =>
      refine ⟨hnames name (hsuffix.mem List.mem_cons_self), ?_⟩
      rw [hnode, if_pos ((List.suffix_cons name around).trans hsuffix)]
    case isFalse => cases hfound

/-! ## Names that lead up -/

/-- Each of the names that leads up leads out of a directory that is there. -/
def LeavesDirectories (disk : Disk) : (dir : Location) → (names : List Text) → Prop
  | _, [] => True
  | dir, name :: names =>
    (name = ['.', '.'] → disk.node? dir = some .directory) ∧ disk.LeavesDirectories (enter dir name) names

instance LeavesDirectories.decidable (disk : Disk) : (dir : Location) → (names : List Text) →
    Decidable (disk.LeavesDirectories dir names)
  | _, [] => .isTrue trivial
  | dir, name :: names =>
    have := LeavesDirectories.decidable disk (enter dir name) names
    inferInstanceAs (Decidable ((name = ['.', '.'] → disk.node? dir = some .directory) ∧
      disk.LeavesDirectories (enter dir name) names))

theorem leavesDirectories_append (front back : List Text) : disk.LeavesDirectories dir (front ++ back) ↔
    disk.LeavesDirectories dir front ∧ disk.LeavesDirectories (front.foldl enter dir) back := by
  induction front generalizing dir with
  | nil => simp [LeavesDirectories]
  | cons name front ih => simp only [List.cons_append, LeavesDirectories, ih, List.foldl_cons, and_assoc]

theorem foldl_enter_filter (dir : Location) (names : List Text) :
    (names.filter (· ≠ ['.'])).foldl enter dir = names.foldl enter dir := by
  induction names generalizing dir with
  | nil => rfl
  | cons name names ih =>
    rw [List.filter_cons]
    by_cases hdot : name = ['.']
    · rw [if_neg (by simp [hdot]), ih, List.foldl_cons, enter, if_pos hdot]
    · rw [if_pos (by simp [hdot]), List.foldl_cons, ih, List.foldl_cons]

theorem LeavesDirectories.filter (h : disk.LeavesDirectories dir names) :
    disk.LeavesDirectories dir (names.filter (· ≠ ['.'])) := by
  induction names generalizing dir with
  | nil => trivial
  | cons name names ih =>
    obtain ⟨hup, hrest⟩ := h
    rw [List.filter_cons]
    by_cases hdot : name = ['.']
    · rw [enter, if_pos hdot] at hrest
      rw [if_neg (by simp [hdot])]
      exact ih hrest
    · rw [if_pos (by simp [hdot])]
      exact ⟨hup, ih hrest⟩

theorem foldl_enter_components (dir : Location) (path : Path) :
    path.components.foldl enter dir = path.segments.foldl enter dir := by
  unfold Path.components
  split
  case h_1 rest _ hrest => rw [hrest, List.foldl_cons, List.foldl_cons, foldl_enter_filter]
  case h_2 => rw [foldl_enter_filter]

theorem LeavesDirectories.components (h : disk.LeavesDirectories dir path.segments) :
    disk.LeavesDirectories dir path.components := by
  unfold Path.components
  split
  case h_1 rest _ hrest =>
    rw [hrest] at h
    exact ⟨h.1, h.2.filter⟩
  case h_2 => exact h.filter

/-- Names lead to a directory that is there, if whatever they go up from is there. -/
theorem IsTree.follow_of_directory (htree : disk.IsTree) (hleaves : disk.LeavesDirectories dir names)
    (h : disk.node? (names.foldl enter dir) = some .directory) :
    disk.follow dir names = .ok (names.foldl enter dir) := by
  induction names using List.reverseRecOn with
  | nil => rfl
  | append_singleton front name ih =>
    obtain ⟨hfront, hup, -⟩ := (leavesDirectories_append front [name]).1 hleaves
    rw [List.foldl_append, List.foldl_cons, List.foldl_nil] at h ⊢
    -- The directory around the last name is there, and the name is not too long.
    have haround : disk.node? (front.foldl enter dir) = some .directory ∧
        ¬(name ≠ ['.'] ∧ name ≠ ['.', '.'] ∧ nameLimit < Text.byteLength name) := by
      by_cases hdot : name = ['.']
      · rw [hdot, enter, if_pos rfl] at h
        exact ⟨h, fun hlong => hlong.1 hdot⟩
      by_cases hdotdot : name = ['.', '.']
      · exact ⟨hup hdotdot, fun hlong => hlong.2.1 hdotdot⟩
      rw [enter, if_neg hdot, if_neg hdotdot] at h
      obtain ⟨hname, haround⟩ := htree.around h
      exact ⟨haround, fun hlong => Nat.not_le_of_lt hlong.2.2 hname.length⟩
    rw [follow_concat, ih hfront haround.1]
    change disk.step _ name = _
    rw [step_of_directory haround.1, if_neg haround.2]

/-! ## Disks that grow -/

/-- On a later disk every directory is one, and every file is a file, maybe with other contents. -/
structure Grows (disk after : Disk) : Prop where
  workdir : after.workdir = disk.workdir
  clock : disk.clock ≤ after.clock
  tree : after.IsTree
  directory : ∀ {place}, disk.node? place = some .directory → after.node? place = some .directory
  file : ∀ {place contents time}, disk.node? place = some (.file contents time) →
    ∃ contents time, after.node? place = some (.file contents time)

namespace Grows

theorem refl (htree : disk.IsTree) : Grows disk disk :=
  ⟨rfl, Nat.le_refl _, htree, fun h => h, fun h => ⟨_, _, h⟩⟩

theorem trans (h : Grows disk after) (h' : Grows after last) : Grows disk last where
  workdir := h'.workdir.trans h.workdir
  clock := Nat.le_trans h.clock h'.clock
  tree := h'.tree
  directory hplace := h'.directory (h.directory hplace)
  file hplace := by
    obtain ⟨_, _, hafter⟩ := h.file hplace
    exact h'.file hafter

/-- Something is stored where a path leads: not in the place of a directory, and no directory in the
    place of a file. -/
theorem put (htree : disk.IsTree) (hlocate : disk.locate path = .ok place)
    (hplace : disk.node? place ≠ some .directory) (hnode : node = .directory → disk.node? place = none) :
    Grows disk (disk.put place node) where
  workdir := rfl
  clock := Nat.le_refl _
  tree := htree.put hlocate hplace node
  directory hdirectory := by
    rw [node?_put, if_neg fun heq : _ = place => hplace (heq ▸ hdirectory), hdirectory]
  file hfile := by
    rw [node?_put]
    split
    case isTrue heq =>
      cases node with
      | directory =>
        rw [heq, hnode rfl] at hfile
        cases hfile
      | file contents time => exact ⟨contents, time, rfl⟩
    case isFalse => exact ⟨_, _, hfile⟩

variable (h : Grows disk after)

include h

theorem start (absolute : Bool) : after.start absolute = disk.start absolute := by
  unfold Disk.start
  rw [h.workdir]

theorem placeOf (path : Path) : after.placeOf path = disk.placeOf path := by
  unfold Disk.placeOf
  rw [h.start]

theorem step (hfound : disk.step dir name ≠ .error .notFound) : after.step dir name = disk.step dir name := by
  unfold Disk.step at hfound ⊢
  cases hnode : disk.node? dir with
  | none => simp [hnode] at hfound
  | some node =>
    cases node with
    | directory => rw [h.directory hnode]
    | file contents time =>
      obtain ⟨_, _, hfile⟩ := h.file hnode
      rw [hfile]

theorem follow (hfound : disk.follow dir names ≠ .error .notFound) :
    after.follow dir names = disk.follow dir names := by
  induction names generalizing dir with
  | nil => rfl
  | cons name names ih =>
    unfold Disk.follow at hfound ⊢
    rw [List.foldlM_cons] at hfound ⊢
    rw [List.foldlM_cons]
    have hstep : disk.step dir name ≠ .error .notFound := by
      intro hstep
      rw [hstep] at hfound
      exact hfound rfl
    rw [h.step hstep]
    cases hnext : disk.step dir name with
    | error error => rfl
    | ok next =>
      rw [hnext] at hfound
      exact ih hfound

/-- A path leads where it led before, or fails as before, unless something was missing. -/
theorem locate (hfound : disk.locate path ≠ .error .notFound) : after.locate path = disk.locate path := by
  by_cases hfits : Fits path
  · rw [locate_of_fits hfits] at hfound ⊢
    rw [locate_of_fits hfits, h.start]
    exact h.follow hfound
  · obtain ⟨error, -, hfails⟩ := exists_error_of_not_fits hfits
    rw [hfails, hfails]

theorem locate_ok (hlocate : disk.locate path = .ok place) : after.locate path = .ok place := by
  rw [h.locate (by simp [hlocate]), hlocate]

theorem locate_error (hlocate : disk.locate path = .error error) (hfound : error ≠ .notFound) :
    after.locate path = .error error := by
  rw [h.locate (by simpa [hlocate] using hfound), hlocate]

theorem leavesDirectories (hleaves : disk.LeavesDirectories dir names) : after.LeavesDirectories dir names := by
  induction names generalizing dir with
  | nil => trivial
  | cons name names ih => exact ⟨fun hup => h.directory (hleaves.1 hup), ih hleaves.2⟩

/-- What is there already is led to already. -/
theorem locate_of_node (htree : disk.IsTree)
    (hleaves : disk.LeavesDirectories (disk.start path.isAbsolute) path.segments)
    (hlocate : after.locate path = .ok place) (hnode : disk.node? place = some node) :
    disk.locate path = .ok place := by
  obtain ⟨hfits, -⟩ := locate_eq_ok hlocate
  rw [locate_of_fits hfits] at hlocate ⊢
  rw [h.start] at hlocate
  generalize disk.start path.isAbsolute = start at hlocate hleaves ⊢
  cases hsegments : path.segments using List.reverseRecOn with
  | nil =>
    rw [hsegments] at hlocate
    exact hlocate
  | append_singleton front name =>
    rw [hsegments] at hlocate hleaves
    obtain ⟨hfront, hup, -⟩ := (leavesDirectories_append front [name]).1 hleaves
    rw [follow_concat] at hlocate ⊢
    cases hdir : after.follow start front with
    | error error =>
      rw [hdir] at hlocate
      cases hlocate
    | ok dir =>
      rw [hdir] at hlocate
      change after.step dir name = .ok place at hlocate
      obtain ⟨hafter, rfl⟩ := step_eq_ok hlocate
      obtain rfl := follow_eq_ok hdir
      have hdirectory : disk.node? (front.foldl enter start) = some .directory := by
        by_cases hdot : name = ['.']
        · rw [enter, if_pos hdot] at hnode
          cases node with
          | directory => exact hnode
          | file contents time =>
            obtain ⟨_, _, hfile⟩ := h.file hnode
            rw [hafter] at hfile
            cases hfile
        by_cases hdotdot : name = ['.', '.']
        · exact hup hdotdot
        rw [enter, if_neg hdot, if_neg hdotdot] at hnode
        exact (htree.around hnode).2
      rw [htree.follow_of_directory hfront hdirectory]
      change disk.step _ name = _
      rw [step_of_directory hafter] at hlocate
      rw [step_of_directory hdirectory, hlocate]

end Grows

end Disk

end Template
