import Template.Proofs.DiskStore
import Template.Proofs.Run

/-! # Walking through a directory that changes

A walk lists a directory when it reaches it, so it can meet what its own steps have stored. Where these
only make directories, and files that are not wanted, the walk takes the files that were there at first,
in the order of their names.
-/

namespace Template

namespace Text

theorem le_total (s t : Text) : (le s t || le t s) = true := by
  fun_induction le s t <;> grind [le]

theorem le_antisymm {s t : Text} (h : le s t = true) (h' : le t s = true) : s = t := by
  fun_induction le s t with
  | case1 t => cases t <;> grind [le]
  | case2 | case3 | case4 => grind [le]

theorem le_trans {s t u : Text} (h : le s t = true) (h' : le t u = true) : le s u = true := by
  fun_induction le s t generalizing u <;> cases u <;> grind [le]

end Text

namespace Disk

variable {disk now after last : Disk} {place dir root : Location} {path folder : Path} {name : Text} {entry : Entry}
  {written : Location → Prop} {wanted : Text → Bool}

/-! ## What a directory holds -/

/-- What a directory holds, as it comes. -/
def held (disk : Disk) (dir : Location) : List Entry :=
  disk.nodes.entries.filterMap fun
    | (name :: around, node) => if around = dir then some ⟨name, decide (node = .directory)⟩ else none
    | ([], _) => none

theorem entries_of_lookUp (h : disk.lookUp path = .ok (place, .directory)) :
    disk.entries path = (disk.held place).mergeSort fun a b => Text.le a.name b.name := by
  rw [entries, h]
  rfl

/-- A path leads to a directory that has its entries in the order of their names already. -/
def Sorted (disk : Disk) (path : Path) : Prop :=
  disk.lookUp path = .ok (disk.placeOf path, .directory) ∧
    (disk.held (disk.placeOf path)).Pairwise fun a b => Text.le a.name b.name

instance (disk : Disk) (path : Path) : Decidable (disk.Sorted path) := inferInstanceAs (Decidable (_ ∧ _))

theorem Sorted.entries (h : disk.Sorted path) : disk.entries path = disk.held (disk.placeOf path) := by
  rw [entries_of_lookUp h.1, List.mergeSort_of_pairwise h.2]

/-- A walk over a directory that is in order already takes its entries one after another. -/
theorem Sorted.visit {σ : Type} {step : σ → Path → StateM Disk σ} (h : disk.Sorted path) (depth : Nat) (state : σ) :
    Folders.visit wanted step (depth + 1) path state disk =
      (disk.held (disk.placeOf path)).foldlM (fun state entry =>
        if entry.isDirectory then Folders.visit wanted step depth (path.join ⟨entry.name⟩) state
        else if wanted entry.name then step state (path.join ⟨entry.name⟩)
        else pure state) state disk := by
  rw [Folders.visit, ← h.entries]
  rfl

theorem entries_of_not_directory (h : disk.isDirectory path = false) : disk.entries path = [] := by
  unfold isDirectory at h
  unfold entries
  split at h
  case h_1 => cases h
  case h_2 => rfl

theorem mem_held (htree : disk.IsTree) : entry ∈ disk.held place ↔
    ∃ node, disk.node? (entry.name :: place) = some node ∧ entry.isDirectory = decide (node = .directory) := by
  unfold held node?
  simp only [List.mem_filterMap, Prod.exists]
  constructor
  · rintro ⟨_ | ⟨name, around⟩, node, hmem, hentry⟩
    · cases hentry
    · dsimp only at hentry
      split at hentry
      case isTrue haround =>
        cases hentry
        exact ⟨node, haround ▸ (Table.mem_entries_iff htree.nodup).1 hmem, rfl⟩
      case isFalse => cases hentry
  · rintro ⟨node, hfound, hdirectory⟩
    refine ⟨entry.name :: place, node, (Table.mem_entries_iff htree.nodup).2 hfound, ?_⟩
    exact (if_pos rfl).trans (by rw [← hdirectory])

theorem nodup_held (htree : disk.IsTree) (dir : Location) : (disk.held dir).Nodup := by
  unfold held List.Nodup
  rw [List.pairwise_filterMap]
  have hkeys := htree.nodup
  unfold Table.keys List.Nodup at hkeys
  rw [List.pairwise_map] at hkeys
  apply hkeys.imp
  intro a b hne first hfirst second hsecond heq
  apply hne
  grind

theorem mem_entries (htree : disk.IsTree) (h : disk.lookUp path = .ok (place, .directory)) : entry ∈ disk.entries path ↔
    ∃ node, disk.node? (entry.name :: place) = some node ∧ entry.isDirectory = decide (node = .directory) := by
  rw [entries_of_lookUp h, List.mem_mergeSort, mem_held htree]

theorem nodup_entries (htree : disk.IsTree) (h : disk.lookUp path = .ok (place, .directory)) :
    (disk.entries path).Nodup := by
  rw [entries_of_lookUp h, (List.mergeSort_perm _ _).nodup_iff]
  exact nodup_held htree place

theorem pairwise_entries (h : disk.lookUp path = .ok (place, .directory)) :
    (disk.entries path).Pairwise fun a b => Text.le a.name b.name := by
  rw [entries_of_lookUp h]
  apply List.pairwise_mergeSort
  · exact fun _ _ _ => Text.le_trans
  · exact fun a b => Text.le_total a.name b.name

/-- Of one directory no two entries have the same name. -/
theorem eq_of_mem_entries (htree : disk.IsTree) (h : disk.lookUp path = .ok (place, .directory)) {other : Entry}
    (hentry : entry ∈ disk.entries path) (hother : other ∈ disk.entries path) (hname : entry.name = other.name) :
    entry = other := by
  obtain ⟨node, hnode, hdirectory⟩ := (mem_entries htree h).1 hentry
  obtain ⟨node', hnode', hdirectory'⟩ := (mem_entries htree h).1 hother
  rw [hname, hnode', Option.some.injEq] at hnode
  obtain ⟨_, _⟩ := entry
  obtain ⟨_, _⟩ := other
  rw [Entry.mk.injEq]
  dsimp only at hname hdirectory hdirectory'
  exact ⟨hname, by rw [hdirectory, hdirectory', hnode]⟩

/-- A later disk differs in the files at some places, and in new directories. -/
structure GrowsAt (written : Location → Prop) (disk after : Disk) : Prop extends Grows disk after where
  others : ∀ place, ¬ written place → after.node? place = disk.node? place ∨
    disk.node? place = none ∧ after.node? place = some .directory

theorem GrowsAt.refl (htree : disk.IsTree) : GrowsAt written disk disk := ⟨.refl htree, fun _ _ => .inl rfl⟩

theorem GrowsAt.trans (h : GrowsAt written disk after) (h' : GrowsAt written after last) :
    GrowsAt written disk last := by
  refine ⟨h.toGrows.trans h'.toGrows, fun place hplace => ?_⟩
  rcases h.others place hplace with hsame | ⟨hnone, hdirectory⟩
  · have hothers := h'.others place hplace
    rw [hsame] at hothers
    exact hothers
  · exact .inr ⟨hnone, h'.directory hdirectory⟩

/-- The entries that were there at first, in the same order. -/
theorem filter_entries (htree : disk.IsTree) (h : Grows disk now) (hlookUp : disk.lookUp path = .ok (place, .directory))
    (hlookUp' : now.lookUp path = .ok (place, .directory)) :
    (now.entries path).filter (fun entry => (disk.node? (entry.name :: place)).isSome) = disk.entries path := by
  have hmem : ∀ entry, entry ∈ (now.entries path).filter (fun entry => (disk.node? (entry.name :: place)).isSome) ↔
      entry ∈ disk.entries path := by
    intro entry
    rw [List.mem_filter, mem_entries htree hlookUp, mem_entries h.tree hlookUp']
    cases hnode : disk.node? (entry.name :: place) with
    | none => simp
    | some node =>
      cases node with
      | directory => simp [h.directory hnode]
      | file contents time =>
        obtain ⟨_, _, hfile⟩ := h.file hnode
        simp [hfile]
  -- Both lists are in order, and an order of names tells entries apart.
  have hsame : ∀ a b : Entry, a ∈ (now.entries path).filter (fun entry => (disk.node? (entry.name :: place)).isSome) →
      b ∈ disk.entries path → Text.le a.name b.name = true → Text.le b.name a.name = true → a = b := by
    intro a b ha hb hle hle'
    exact eq_of_mem_entries htree hlookUp ((hmem a).1 ha) hb (Text.le_antisymm hle hle')
  apply List.Perm.eq_of_pairwise hsame ((pairwise_entries hlookUp').filter _) (pairwise_entries hlookUp)
  rw [List.perm_ext_iff_of_nodup ((nodup_entries h.tree hlookUp').filter _) (nodup_entries htree hlookUp)]
  exact hmem

/-! ## The files that are wanted -/

/-- The files below a directory whose names are wanted, down to a depth, in the order of a walk. -/
def templates (disk : Disk) (wanted : Text → Bool) : (depth : Nat) → Path → List Path
  | 0, _ => []
  | depth + 1, folder =>
    (disk.entries folder).flatMap fun entry =>
      if entry.isDirectory then disk.templates wanted depth (folder.join ⟨entry.name⟩)
      else if wanted entry.name then [folder.join ⟨entry.name⟩]
      else []

theorem templates_of_not_directory (h : disk.isDirectory path = false) (depth : Nat) :
    disk.templates wanted depth path = [] := by
  cases depth with
  | zero => rfl
  | succ depth => rw [templates, entries_of_not_directory h, List.flatMap_nil]

section

variable (hname : IsName name) (hne : folder.text ≠ [])

include hname hne

/-- A path leads to a name in the directory that the path around it leads to. -/
theorem exists_of_locate_join (h : disk.locate (folder.join ⟨name⟩) = .ok place) :
    ∃ around, disk.locate folder = .ok around ∧ disk.node? around = some .directory ∧ place = name :: around := by
  obtain ⟨hfits, -⟩ := locate_eq_ok h
  have hfits' := hfits.of_prefix (Path.prefix_join hname.segment _) hne
  rw [locate_of_fits hfits, Path.segments_join hname.segment, Path.isAbsolute_join hname.segment, follow_concat,
    ← locate_of_fits hfits'] at h
  cases hfolder : disk.locate folder with
  | error error =>
    rw [hfolder] at h
    cases h
  | ok around =>
    rw [hfolder] at h
    change disk.step around name = .ok place at h
    obtain ⟨hdirectory, rfl⟩ := step_eq_ok h
    rw [enter, if_neg hname.ne_dot, if_neg hname.ne_dotdot]
    exact ⟨around, rfl, hdirectory, rfl⟩

theorem locate_join (hfits : Fits (folder.join ⟨name⟩)) (hlocate : disk.locate folder = .ok place)
    (hdirectory : disk.node? place = some .directory) : disk.locate (folder.join ⟨name⟩) = .ok (name :: place) := by
  have hfits' := hfits.of_prefix (Path.prefix_join hname.segment _) hne
  rw [locate_of_fits hfits, Path.segments_join hname.segment, Path.isAbsolute_join hname.segment, follow_concat,
    ← locate_of_fits hfits', hlocate]
  change disk.step place name = _
  rw [step_of_directory hdirectory, if_neg fun hlong => Nat.not_le_of_lt hlong.2.2 hname.length, enter,
    if_neg hname.ne_dot, if_neg hname.ne_dotdot]

end

/-- If a path leads to a directory on a later disk, this is below the root of the walk, and it was
    there at first or its place was free. -/
def Reached (disk : Disk) (written : Location → Prop) (root : Location) (folder : Path) : Prop :=
  ∀ now, GrowsAt written disk now → ∀ place, now.lookUp folder = .ok (place, .directory) →
    root <:+ place ∧ (disk.lookUp folder = .ok (place, .directory) ∨
      disk.node? place = none ∧ disk.isDirectory folder = false)

theorem GrowsAt.lookUp (h : GrowsAt written disk now) (hlookUp : disk.lookUp path = .ok (place, .directory)) :
    now.lookUp path = .ok (place, .directory) := by
  obtain ⟨hlocate, hdirectory⟩ := lookUp_eq_ok hlookUp
  exact lookUp_of_directory (h.locate_ok hlocate) (h.directory hdirectory)

theorem reached_root (h : disk.lookUp folder = .ok (root, .directory)) : disk.Reached written root folder := by
  intro now hnow place hlookUp
  rw [hnow.lookUp h] at hlookUp
  cases hlookUp
  exact ⟨List.suffix_refl _, .inl h⟩

theorem Reached.join (h : disk.Reached written root folder) (htree : disk.IsTree) (hname : IsName name)
    (hne : folder.text ≠ []) : disk.Reached written root (folder.join ⟨name⟩) := by
  intro now hnow place hlookUp
  obtain ⟨hlocate, hnode⟩ := lookUp_eq_ok hlookUp
  obtain ⟨around, haround, hdirectory, rfl⟩ := exists_of_locate_join hname hne hlocate
  obtain ⟨hroot, hthere⟩ := h now hnow around (lookUp_of_directory haround hdirectory)
  refine ⟨hroot.trans (List.suffix_cons _ _), ?_⟩
  rcases hthere with hthere | ⟨hnone, hfolder⟩
  · obtain ⟨haround', hdirectory'⟩ := lookUp_eq_ok hthere
    have hlocate' := locate_join hname hne (locate_eq_ok hlocate).1 haround' hdirectory'
    cases hnode' : disk.node? (name :: around) with
    | none =>
      refine .inr ⟨rfl, ?_⟩
      rw [Bool.eq_false_iff, ne_eq, isDirectory_iff, hlocate']
      simp [hnode']
    | some node =>
      cases node with
      | directory => exact .inl (lookUp_of_directory hlocate' hnode')
      | file contents time =>
        obtain ⟨_, _, hfile⟩ := hnow.file hnode'
        rw [hnode] at hfile
        cases hfile
  · refine .inr ⟨?_, ?_⟩
    · cases hnode' : disk.node? (name :: around) with
      | none => rfl
      | some node =>
        rw [(htree.around hnode').2] at hnone
        cases hnone
    · rw [Bool.eq_false_iff, ne_eq, isDirectory_iff]
      rintro ⟨place, hplace, -⟩
      obtain ⟨around, hlocate', hdirectory', -⟩ := exists_of_locate_join hname hne hplace
      rw [Bool.eq_false_iff, ne_eq, isDirectory_iff] at hfolder
      exact hfolder ⟨around, hlocate', hdirectory'⟩

/-- Where something is listed there is a directory. -/
theorem exists_lookUp_of_mem_entries (h : entry ∈ disk.entries folder) :
    ∃ place, disk.lookUp folder = .ok (place, .directory) := by
  cases hfolder : disk.isDirectory folder with
  | false =>
    rw [entries_of_not_directory hfolder] at h
    cases h
  | true =>
    obtain ⟨place, hlocate, hdirectory⟩ := isDirectory_iff.1 hfolder
    exact ⟨place, lookUp_of_directory hlocate hdirectory⟩

theorem text_ne_nil_of_mem_entries (h : entry ∈ disk.entries folder) : folder.text ≠ [] := by
  obtain ⟨place, hlookUp⟩ := exists_lookUp_of_mem_entries h
  exact (locate_eq_ok (lookUp_eq_ok hlookUp).1).1.ne_nil

theorem isName_of_mem_entries (htree : disk.IsTree) (h : entry ∈ disk.entries folder) : IsName entry.name := by
  obtain ⟨place, hlookUp⟩ := exists_lookUp_of_mem_entries h
  obtain ⟨node, hnode, -⟩ := (mem_entries htree hlookUp).1 h
  exact (htree.around hnode).1

theorem flatMap_filter_of_nil {α β : Type} {kept : α → Bool} {f : α → List β} {l : List α}
    (h : ∀ a ∈ l, kept a = false → f a = []) : (l.filter kept).flatMap f = l.flatMap f := by
  induction l with
  | nil => rfl
  | cons a l ih =>
    rw [List.forall_mem_cons] at h
    rw [List.filter_cons, List.flatMap_cons]
    cases hkept : kept a with
    | true => rw [if_pos rfl, List.flatMap_cons, ih h.2]
    | false => rw [if_neg Bool.false_ne_true, ih h.2, h.1 hkept, List.nil_append]

section

variable (htree : disk.IsTree) (hunwanted : ∀ name dir, written (name :: dir) → root <:+ dir → wanted name = false)

/-- What an entry adds to the files that are wanted. -/
def entryTemplates (disk : Disk) (wanted : Text → Bool) (depth : Nat) (folder : Path) (entry : Entry) : List Path :=
  if entry.isDirectory then disk.templates wanted depth (folder.join ⟨entry.name⟩)
  else if wanted entry.name then [folder.join ⟨entry.name⟩]
  else []

theorem templates_succ (depth : Nat) (folder : Path) : disk.templates wanted (depth + 1) folder =
    (disk.entries folder).flatMap (disk.entryTemplates wanted depth folder) := rfl

include hunwanted

/-- What is met for the first time in a directory adds nothing to the files that are wanted. -/
theorem entryTemplates_of_none (hnow : GrowsAt written disk now) (hroot : root <:+ place)
    (hlookUp : now.lookUp folder = .ok (place, .directory)) (hentry : entry ∈ now.entries folder)
    (hnone : disk.node? (entry.name :: place) = none) (depth : Nat) :
    disk.entryTemplates wanted depth folder entry = [] := by
  have hname := isName_of_mem_entries hnow.tree hentry
  have hne := text_ne_nil_of_mem_entries hentry
  obtain ⟨node, hnode, hdirectory⟩ := (mem_entries hnow.tree hlookUp).1 hentry
  unfold entryTemplates
  cases node with
  | directory =>
    rw [hdirectory, decide_eq_true rfl, if_pos rfl]
    apply templates_of_not_directory
    rw [Bool.eq_false_iff, ne_eq, isDirectory_iff]
    rintro ⟨found, hlocate, hfound⟩
    obtain ⟨around, haround, -, rfl⟩ := exists_of_locate_join hname hne hlocate
    have hsame := (hnow.locate_ok haround).symm.trans (lookUp_eq_ok hlookUp).1
    cases hsame
    rw [hnone] at hfound
    cases hfound
  | file contents time =>
    have hwritten : written (entry.name :: place) := by
      apply Classical.byContradiction
      intro hwritten
      rcases hnow.others _ hwritten with hsame | ⟨-, hmade⟩
      · rw [hnode, hnone] at hsame
        cases hsame
      · rw [hnode] at hmade
        cases hmade
    rw [hdirectory, decide_eq_false nofun, if_neg Bool.false_ne_true, hunwanted _ _ hwritten hroot,
      if_neg Bool.false_ne_true]

include htree

/-- So the entries of a directory give the files that were there at first. -/
theorem flatMap_entries (hreached : disk.Reached written root folder) (hnow : GrowsAt written disk now) (depth : Nat) :
    (now.entries folder).flatMap (disk.entryTemplates wanted depth folder) =
      disk.templates wanted (depth + 1) folder := by
  cases hfolder : now.isDirectory folder with
  | false =>
    have hnone : disk.isDirectory folder = false := by
      rw [Bool.eq_false_iff] at hfolder ⊢
      exact fun hdirectory => hfolder (hnow.isDirectory hdirectory)
    rw [entries_of_not_directory hfolder, templates_of_not_directory hnone, List.flatMap_nil]
  | true =>
    obtain ⟨place, hlocate, hdirectory⟩ := isDirectory_iff.1 hfolder
    have hlookUp := lookUp_of_directory hlocate hdirectory
    obtain ⟨hroot, hthere | ⟨hnone, hlacking⟩⟩ := hreached now hnow place hlookUp
    · rw [templates_succ, ← filter_entries htree hnow.toGrows hthere hlookUp]
      symm
      apply flatMap_filter_of_nil
      intro entry hentry hnone
      exact entryTemplates_of_none hunwanted hnow hroot hlookUp hentry (by simpa using hnone) depth
    · rw [templates_of_not_directory hlacking, List.flatMap_eq_nil_iff]
      intro entry hentry
      apply entryTemplates_of_none hunwanted hnow hroot hlookUp hentry
      cases hnode : disk.node? (entry.name :: place) with
      | none => rfl
      | some node =>
        rw [(htree.around hnode).2] at hnone
        cases hnone

/-- A later walk would take the same files. -/
theorem templates_eq (hreached : disk.Reached written root folder) (hnow : GrowsAt written disk now) (depth : Nat) :
    now.templates wanted depth folder = disk.templates wanted depth folder := by
  induction depth generalizing folder with
  | zero => rfl
  | succ depth ih =>
    rw [templates_succ, ← flatMap_entries htree hunwanted hreached hnow, List.flatMap_def, List.flatMap_def]
    apply congrArg List.flatten
    apply List.map_congr_left
    intro entry hentry
    have hname := isName_of_mem_entries hnow.tree hentry
    unfold entryTemplates
    rw [ih (hreached.join htree hname (text_ne_nil_of_mem_entries hentry))]

end

/-- A file that is wanted has a name in a directory that was there at first, below the root. -/
theorem exists_of_mem_templates (htree : disk.IsTree) {depth : Nat} (hreached : disk.Reached written root folder)
    (hmem : path ∈ disk.templates wanted depth folder) :
    ∃ around name place contents time, IsName name ∧ path = Path.join around ⟨name⟩ ∧ around.text ≠ [] ∧
      disk.lookUp around = .ok (place, .directory) ∧ root <:+ place ∧
      disk.node? (name :: place) = some (.file contents time) ∧ wanted name = true := by
  induction depth generalizing folder with
  | zero => cases hmem
  | succ depth ih =>
    obtain ⟨entry, hentry, hmem⟩ := List.mem_flatMap.1 hmem
    have hname := isName_of_mem_entries htree hentry
    have hne := text_ne_nil_of_mem_entries hentry
    split at hmem
    case isTrue => exact ih (hreached.join htree hname hne) hmem
    case isFalse hfile =>
      split at hmem
      case isTrue hwanted =>
        obtain rfl := List.mem_singleton.1 hmem
        obtain ⟨place, hlookUp⟩ := exists_lookUp_of_mem_entries hentry
        obtain ⟨node, hnode, hdirectory⟩ := (mem_entries htree hlookUp).1 hentry
        obtain ⟨hroot, -⟩ := hreached disk (.refl htree) place hlookUp
        cases node with
        | directory => exact absurd (hdirectory.trans (decide_eq_true rfl)) hfile
        | file contents time =>
          exact ⟨folder, entry.name, place, contents, time, hname, rfl, hne, hlookUp, hroot, hnode, hwanted⟩
      case isFalse => cases hmem

/-- A file that is wanted stays as it is. -/
theorem lookUp_of_mem_templates (htree : disk.IsTree)
    (hunwanted : ∀ name dir, written (name :: dir) → root <:+ dir → wanted name = false) {depth : Nat}
    (hreached : disk.Reached written root folder) (hmem : path ∈ disk.templates wanted depth folder) :
    (∀ now, GrowsAt written disk now → now.lookUp path = disk.lookUp path) ∧
      ∀ place, disk.lookUp path ≠ .ok (place, .directory) := by
  obtain ⟨around, name, place, contents, time, hname, rfl, hne, hlookUp, hroot, hnode, hwanted⟩ :=
    exists_of_mem_templates htree hreached hmem
  obtain ⟨hlocate, hdirectory⟩ := lookUp_eq_ok hlookUp
  by_cases hfits : Fits (around.join ⟨name⟩)
  case neg =>
    obtain ⟨error, -, hfails⟩ := exists_error_of_not_fits hfits
    refine ⟨fun now _ => by rw [lookUp_of_error (hfails now), lookUp_of_error (hfails disk)], fun place => ?_⟩
    rw [lookUp_of_error (hfails disk)]
    exact nofun
  case pos =>
    have hlocate' := locate_join hname hne hfits hlocate hdirectory
    have hkept : ¬ written (name :: place) := by
      intro hwritten
      rw [hunwanted name place hwritten hroot] at hwanted
      cases hwanted
    refine ⟨fun now hnow => ?_, fun found hfound => ?_⟩
    · have hsame : now.node? (name :: place) = disk.node? (name :: place) := by
        rcases hnow.others _ hkept with hsame | ⟨hnone, -⟩
        · exact hsame
        · rw [hnode] at hnone
          cases hnone
      rw [lookUp_of_ok (hnow.locate_ok hlocate'), lookUp_of_ok hlocate', hsame]
    · obtain ⟨hplace, hfound⟩ := lookUp_eq_ok hfound
      rw [hlocate'] at hplace
      cases hplace
      rw [hnode] at hfound
      cases hfound

/-! ## The walk -/

section

variable {σ : Type} {step : σ → Path → StateM Disk σ}
  (hstep : ∀ state path now, GrowsAt written disk now → GrowsAt written now (step state path now).2)

include hstep

theorem growsAt_foldlM (paths : List Path) (state : σ) (hnow : GrowsAt written disk now) :
    GrowsAt written now (paths.foldlM step state now).2 := by
  induction paths generalizing state now with
  | nil => exact .refl hnow.tree
  | cons path paths ih =>
    rw [List.foldlM_cons, Run.stateM_bind_apply]
    have hnext := hstep state path now hnow
    exact hnext.trans (ih _ (hnow.trans hnext))

/-- A walk whose steps make directories, and write files that it does not want, takes the wanted files
    that were there at first. -/
theorem visit_eq_foldlM (htree : disk.IsTree)
    (hunwanted : ∀ name dir, written (name :: dir) → root <:+ dir → wanted name = false)
    (hreached : disk.Reached written root folder) (hnow : GrowsAt written disk now) (depth : Nat) (state : σ) :
    Folders.visit wanted step depth folder state now = (disk.templates wanted depth folder).foldlM step state now := by
  induction depth generalizing folder state now with
  | zero => rfl
  | succ depth ih =>
    -- Each entry in turn takes its files, on whatever disk the ones before it have left.
    have hentries : ∀ (entries : List Entry) (state : σ) (later : Disk), GrowsAt written disk later →
        (∀ entry ∈ entries, entry ∈ now.entries folder) →
        (entries.foldlM (fun state entry =>
          if entry.isDirectory then Folders.visit wanted step depth (folder.join ⟨entry.name⟩) state
          else if wanted entry.name then step state (folder.join ⟨entry.name⟩)
          else pure state) state : StateM Disk σ) later =
        ((entries.flatMap (disk.entryTemplates wanted depth folder)).foldlM step state) later := by
      intro entries
      induction entries with
      | nil => exact fun _ _ _ _ => rfl
      | cons entry entries ihEntries =>
        intro state later hlater hmem
        rw [List.forall_mem_cons] at hmem
        have hhere : (if entry.isDirectory then Folders.visit wanted step depth (folder.join ⟨entry.name⟩) state
            else if wanted entry.name then step state (folder.join ⟨entry.name⟩)
            else pure state : StateM Disk σ) later =
            ((disk.entryTemplates wanted depth folder entry).foldlM step state) later := by
          unfold entryTemplates
          split
          case isTrue =>
            have hname := isName_of_mem_entries hnow.tree hmem.1
            exact ih (hreached.join htree hname (text_ne_nil_of_mem_entries hmem.1)) hlater state
          case isFalse => split <;> rfl
        rw [List.foldlM_cons, List.flatMap_cons, List.foldlM_append, Run.stateM_bind_apply, Run.stateM_bind_apply,
          hhere]
        apply ihEntries _ _ (hlater.trans (growsAt_foldlM hstep _ _ hlater)) hmem.2
    rw [← flatMap_entries htree hunwanted hreached hnow, ← hentries _ state now hnow fun _ h => h]
    rfl

end

end Disk

end Template
