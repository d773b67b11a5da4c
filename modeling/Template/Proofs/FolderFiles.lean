import Mathlib.Data.List.Nodup
import Template.Proofs.ViewFile

/-! # The files of a folder

A walk takes every file below a folder with a wanted name, if the path to the directory it is in can be
looked up. It takes no file twice.
-/

namespace Template

namespace Disk

variable {disk : Disk} {place root : Location} {path folder : Path} {name : Text} {names : List Text}
  {node : DiskNode} {wanted : Text → Bool} {depth : Nat}

theorem IsName.leadsDown (h : IsName name) : LeadsDown name := ⟨h.segment, h.ne_dot, h.ne_dotdot⟩

section

variable (front : Location)

/-- What is below a place is in a directory there. -/
theorem IsTree.directory_of_below (htree : disk.IsTree) (h : disk.node? (front ++ place) = some node)
    (hne : front ≠ []) : disk.node? place = some .directory := by
  induction front generalizing node with
  | nil => exact absurd rfl hne
  | cons name front ih =>
    have haround := (htree.around h).2
    by_cases hnil : front = []
    · rw [hnil] at haround
      exact haround
    · exact ih haround hnil

/-- What is below a place has the names of files and directories. -/
theorem IsTree.isName_of_below (htree : disk.IsTree) (h : disk.node? (front ++ place) = some node) :
    ∀ s ∈ front, IsName s := by
  induction front generalizing node with
  | nil => exact nofun
  | cons name front ih =>
    obtain ⟨hname, haround⟩ := htree.around h
    exact List.forall_mem_cons.2 ⟨hname, ih haround⟩

/-- Nothing is below a place where nothing is. -/
theorem IsTree.node?_below (htree : disk.IsTree) (h : disk.node? place = none) :
    disk.node? (front ++ place) = none := by
  cases hnode : disk.node? (front ++ place) with
  | none => rfl
  | some node =>
    by_cases hnil : front = []
    · rw [hnil, List.nil_append, h] at hnode
      cases hnode
    · rw [htree.directory_of_below _ hnode hnil] at h
      cases h

end

theorem prefix_below (hnames : ∀ s ∈ names, Path.IsSegment s) (folder : Path) :
    folder.text <+: (folder.below names).text := by
  induction names generalizing folder with
  | nil => exact List.prefix_refl _
  | cons name names ih =>
    rw [List.forall_mem_cons] at hnames
    exact (Path.prefix_join hnames.1 folder).trans (ih hnames.2 (folder.join ⟨name⟩))

theorem Fits.of_below (hname : Path.IsSegment name) (hnames : ∀ s ∈ names, Path.IsSegment s)
    (h : Fits (folder.below (name :: names))) : Fits (folder.join ⟨name⟩) :=
  h.of_prefix (prefix_below hnames _) (Path.join_text_ne_nil hname)

/-- The place of a path by names. -/
theorem placeOf_below (hnames : ∀ s ∈ names, LeadsDown s) (disk : Disk) (folder : Path) :
    disk.placeOf (folder.below names) = names.reverse ++ disk.placeOf folder := by
  induction names generalizing folder with
  | nil => rfl
  | cons name names ih =>
    rw [List.forall_mem_cons] at hnames
    rw [Path.below_cons, ih hnames.2, placeOf_join hnames.1.segment hnames.1.ne_dot hnames.1.ne_dotdot,
      List.reverse_cons, List.append_assoc, List.singleton_append]

/-- A directory in a directory is found if its path can be looked up. -/
theorem lookUp_join (hname : IsName name) (hlookUp : disk.lookUp folder = .ok (place, .directory))
    (hnode : disk.node? (name :: place) = some .directory) (hfits : Fits (folder.join ⟨name⟩)) :
    disk.lookUp (folder.join ⟨name⟩) = .ok (name :: place, .directory) := by
  obtain ⟨hlocate, hdirectory⟩ := lookUp_eq_ok hlookUp
  have hne := (locate_eq_ok hlocate).1.ne_nil
  exact lookUp_of_directory (locate_join hname hne hfits hlocate hdirectory) hnode

/-- A directory below a directory is found if its path can be looked up. -/
theorem lookUp_below (htree : disk.IsTree) (hlookUp : disk.lookUp folder = .ok (place, .directory))
    (hnode : disk.node? (names.reverse ++ place) = some .directory) (hfits : Fits (folder.below names)) :
    disk.lookUp (folder.below names) = .ok (names.reverse ++ place, .directory) := by
  induction names generalizing folder place with
  | nil => exact hlookUp
  | cons name names ih =>
    have hbelow : (name :: names).reverse ++ place = names.reverse ++ (name :: place) := by simp
    rw [hbelow] at hnode ⊢
    have hnames : ∀ s ∈ names, Path.IsSegment s := fun s hs =>
      (htree.isName_of_below _ hnode s (List.mem_reverse.2 hs)).segment
    have hdirectory : disk.node? (name :: place) = some .directory := by
      by_cases hnil : names = []
      · rwa [hnil] at hnode
      · exact htree.directory_of_below _ hnode (by simpa using hnil)
    have hname : IsName name := (htree.around hdirectory).1
    exact ih (lookUp_join hname hlookUp hdirectory (hfits.of_below hname.segment hnames)) hnode hfits

theorem templates_of_not_fits (h : ¬ Fits folder) (depth : Nat) : disk.templates wanted depth folder = [] := by
  apply templates_of_not_directory
  rw [Bool.eq_false_iff, ne_eq, isDirectory_iff]
  rintro ⟨place, hlocate, -⟩
  exact h (locate_eq_ok hlocate).1

section

variable {entry : Entry} {contents : Contents} {time : Time}

theorem entryTemplates_of_directory (h : entry.isDirectory = decide (DiskNode.directory = .directory)) (depth : Nat) :
    disk.entryTemplates wanted depth folder entry = disk.templates wanted depth (folder.join ⟨entry.name⟩) := by
  rw [entryTemplates, h]
  exact if_pos rfl

theorem entryTemplates_of_file (h : entry.isDirectory = decide (DiskNode.file contents time = .directory))
    (depth : Nat) : disk.entryTemplates wanted depth folder entry =
      if wanted entry.name then [folder.join ⟨entry.name⟩] else [] := by
  rw [entryTemplates, h]
  exact if_neg Bool.false_ne_true

end

/-- The file below a folder by names, the last one wanted; its directory can be looked up. -/
structure IsFileBelow (disk : Disk) (wanted : Text → Bool) (folder : Path) (place : Location) (names : List Text)
    (name : Text) : Prop where
  node : ∃ contents time, disk.node? (name :: (names.reverse ++ place)) = some (.file contents time)
  wanted : wanted name = true
  fits : Fits (folder.below names)

theorem IsFileBelow.isName (htree : disk.IsTree) (h : disk.IsFileBelow wanted folder place names name) :
    ∀ s ∈ names ++ [name], IsName s := by
  obtain ⟨contents, time, hnode⟩ := h.node
  intro s hs
  refine htree.isName_of_below (name :: names.reverse) hnode s ?_
  simpa [or_comm] using hs

/-- A file below a folder that is not in it is below a directory in it. -/
theorem IsFileBelow.of_cons {first : Text} (htree : disk.IsTree)
    (h : disk.IsFileBelow wanted folder place (first :: names) name) :
    disk.node? (first :: place) = some .directory ∧ Fits (folder.join ⟨first⟩) ∧
      disk.IsFileBelow wanted (folder.join ⟨first⟩) (first :: place) names name := by
  have hisName := h.isName htree
  have hnames : ∀ s ∈ names, Path.IsSegment s := fun s hs =>
    (hisName s (List.mem_append_left _ (List.mem_cons_of_mem _ hs))).segment
  have hbelow : (first :: names).reverse ++ place = names.reverse ++ (first :: place) := by simp
  have hnode := h.node
  rw [hbelow] at hnode
  obtain ⟨contents, time, hfile⟩ := hnode
  exact ⟨htree.directory_of_below (name :: names.reverse) hfile (List.cons_ne_nil _ _),
    h.fits.of_below (hisName first List.mem_cons_self).segment hnames, ⟨_, _, hfile⟩, h.wanted, h.fits⟩

/-- A walk takes the wanted files in a folder, and what it takes from the directories in it. -/
theorem mem_templates_succ (htree : disk.IsTree) (hlookUp : disk.lookUp folder = .ok (place, .directory)) :
    path ∈ disk.templates wanted (depth + 1) folder ↔
      (∃ name, path = folder.join ⟨name⟩ ∧ wanted name = true ∧
        ∃ contents time, disk.node? (name :: place) = some (.file contents time)) ∨
      ∃ name, disk.node? (name :: place) = some .directory ∧ Fits (folder.join ⟨name⟩) ∧
        path ∈ disk.templates wanted depth (folder.join ⟨name⟩) := by
  rw [templates_succ, List.mem_flatMap]
  constructor
  · rintro ⟨entry, hentry, hmem⟩
    obtain ⟨node, hnode, hdirectory⟩ := (mem_entries htree hlookUp).1 hentry
    cases node with
    | directory =>
      rw [entryTemplates_of_directory hdirectory] at hmem
      have hfits : Fits (folder.join ⟨entry.name⟩) := by
        apply Classical.byContradiction
        intro hfits
        rw [templates_of_not_fits hfits] at hmem
        cases hmem
      exact .inr ⟨entry.name, hnode, hfits, hmem⟩
    | file contents time =>
      rw [entryTemplates_of_file hdirectory] at hmem
      split at hmem
      case isTrue hwanted => exact .inl ⟨entry.name, List.mem_singleton.1 hmem, hwanted, _, _, hnode⟩
      case isFalse => cases hmem
  · rintro (⟨name, rfl, hwanted, contents, time, hnode⟩ | ⟨name, hnode, -, hmem⟩)
    · refine ⟨⟨name, false⟩, (mem_entries htree hlookUp).2 ⟨_, hnode, rfl⟩, ?_⟩
      rw [entryTemplates, if_neg Bool.false_ne_true, if_pos hwanted]
      exact List.mem_singleton.2 rfl
    · exact ⟨⟨name, true⟩, (mem_entries htree hlookUp).2 ⟨_, hnode, rfl⟩, hmem⟩

/-- What is taken from a folder down to a depth. -/
theorem mem_templates_of_depth (htree : disk.IsTree) (hlookUp : disk.lookUp folder = .ok (place, .directory)) :
    path ∈ disk.templates wanted depth folder ↔ ∃ names name, names.length < depth ∧
      path = folder.below (names ++ [name]) ∧ disk.IsFileBelow wanted folder place names name := by
  induction depth generalizing folder place with
  | zero =>
    constructor
    · exact nofun
    · rintro ⟨names, name, hdepth, -⟩
      exact absurd hdepth (Nat.not_lt_zero _)
  | succ depth ih =>
    have hjoin : ∀ {first}, disk.node? (first :: place) = some .directory → Fits (folder.join ⟨first⟩) →
        disk.lookUp (folder.join ⟨first⟩) = .ok (first :: place, .directory) :=
      fun hfirst hfits => lookUp_join (htree.around hfirst).1 hlookUp hfirst hfits
    rw [mem_templates_succ htree hlookUp]
    constructor
    · rintro (⟨name, rfl, hwanted, hnode⟩ | ⟨first, hfirst, hfits, hmem⟩)
      · exact ⟨[], name, Nat.succ_pos _, rfl, hnode, hwanted, (locate_eq_ok (lookUp_eq_ok hlookUp).1).1⟩
      · obtain ⟨names, name, hdepth, rfl, hfile⟩ := (ih (hjoin hfirst hfits)).1 hmem
        refine ⟨first :: names, name, Nat.succ_lt_succ hdepth, rfl, ?_, hfile.wanted, hfile.fits⟩
        rw [List.reverse_cons, List.append_assoc]
        exact hfile.node
    · rintro ⟨names, name, hdepth, rfl, hfile⟩
      cases names with
      | nil => exact .inl ⟨name, rfl, hfile.wanted, hfile.node⟩
      | cons first names =>
        obtain ⟨hfirst, hfits, hinner⟩ := hfile.of_cons htree
        have hmem := (ih (hjoin hfirst hfits)).2 ⟨names, name, Nat.lt_of_succ_lt_succ hdepth, rfl, hinner⟩
        exact .inr ⟨first, hfirst, hfits, hmem⟩

section

variable (htree : disk.IsTree) (hlookUp : disk.lookUp folder = .ok (place, .directory))

include htree hlookUp

/-- A walk takes every file below the folder that is wanted, and nothing else. -/
theorem mem_templates_iff : path ∈ disk.templates wanted folderDepth folder ↔ ∃ names name,
    path = folder.below (names ++ [name]) ∧ disk.IsFileBelow wanted folder place names name := by
  rw [mem_templates_of_depth htree hlookUp]
  constructor
  · rintro ⟨names, name, -, hpath, hfile⟩
    exact ⟨names, name, hpath, hfile⟩
  · rintro ⟨names, name, hpath, hfile⟩
    refine ⟨names, name, ?_, hpath, hfile⟩
    have hnames : ∀ s ∈ names, Path.IsSegment s := fun s hs =>
      (hfile.isName htree s (List.mem_append_left _ hs)).segment
    have hlength := Path.length_le_byteLength_below hnames folder
    have hshort : Text.byteLength (folder.below names).text < folderDepth := hfile.fits.length
    omega

/-- The file that a walk takes is the one at the place of its path. -/
theorem placeOf_of_isFileBelow (hfile : disk.IsFileBelow wanted folder place names name) :
    disk.placeOf (folder.below (names ++ [name])) = name :: (names.reverse ++ place) := by
  have hnames : ∀ s ∈ names ++ [name], LeadsDown s := fun s hs => (hfile.isName htree s hs).leadsDown
  rw [placeOf_below hnames, List.reverse_append, List.reverse_singleton, ← (locate_eq_ok (lookUp_eq_ok hlookUp).1).2]
  rfl

theorem suffix_of_mem_templates (hmem : path ∈ disk.templates wanted depth folder) : place <:+ disk.placeOf path := by
  obtain ⟨names, name, -, rfl, hfile⟩ := (mem_templates_of_depth htree hlookUp).1 hmem
  rw [placeOf_of_isFileBelow htree hlookUp hfile]
  exact (List.suffix_append _ _).trans (List.suffix_cons _ _)

variable {entry : Entry} (hentry : entry ∈ disk.entries folder)

include hentry

/-- What is taken for an entry is one file, or what is taken from one directory. -/
theorem entryTemplates_cases (depth : Nat) : disk.entryTemplates wanted depth folder entry = [] ∨
    disk.entryTemplates wanted depth folder entry = [folder.join ⟨entry.name⟩] ∨
      disk.entryTemplates wanted depth folder entry = disk.templates wanted depth (folder.join ⟨entry.name⟩) ∧
        disk.lookUp (folder.join ⟨entry.name⟩) = .ok (entry.name :: place, .directory) := by
  obtain ⟨node, hnode, hdirectory⟩ := (mem_entries htree hlookUp).1 hentry
  cases node with
  | file contents time =>
    rw [entryTemplates_of_file hdirectory]
    split
    case isTrue => exact .inr (.inl rfl)
    case isFalse => exact .inl rfl
  | directory =>
    rw [entryTemplates_of_directory hdirectory]
    by_cases hfits : Fits (folder.join ⟨entry.name⟩)
    · exact .inr (.inr ⟨rfl, lookUp_join (isName_of_mem_entries htree hentry) hlookUp hnode hfits⟩)
    · exact .inl (templates_of_not_fits hfits depth)

theorem suffix_of_mem_entryTemplates (hmem : path ∈ disk.entryTemplates wanted depth folder entry) :
    (entry.name :: place) <:+ disk.placeOf path := by
  have hname := isName_of_mem_entries htree hentry
  rcases entryTemplates_cases htree hlookUp hentry depth with hnil | hfile | ⟨hdirectory, hinner⟩
  · rw [hnil] at hmem
    cases hmem
  · rw [hfile, List.mem_singleton] at hmem
    have hplace : disk.placeOf (folder.join ⟨entry.name⟩) = entry.name :: place := by
      rw [placeOf_join hname.segment hname.ne_dot hname.ne_dotdot, (locate_eq_ok (lookUp_eq_ok hlookUp).1).2]
    exact hmem ▸ ⟨[], hplace.symm⟩
  · rw [hdirectory] at hmem
    exact suffix_of_mem_templates htree hinner hmem

end

/-- No file is taken twice. -/
theorem nodup_templates (htree : disk.IsTree) (hlookUp : disk.lookUp folder = .ok (place, .directory)) (depth : Nat) :
    ((disk.templates wanted depth folder).map disk.placeOf).Nodup := by
  induction depth generalizing folder place with
  | zero => exact List.nodup_nil
  | succ depth ih =>
    rw [templates_succ, List.map_flatMap, List.nodup_flatMap]
    constructor
    · intro entry hentry
      rcases entryTemplates_cases htree hlookUp hentry depth with hnil | hfile | ⟨hdirectory, hinner⟩
      · rw [hnil]
        exact List.nodup_nil
      · rw [hfile]
        exact List.nodup_singleton _
      · rw [hdirectory]
        exact ih hinner
    · refine (nodup_entries htree hlookUp).imp_of_mem fun {a b} ha hb hne found hfounda hfoundb => hne ?_
      obtain ⟨path, hpath, rfl⟩ := List.mem_map.1 hfounda
      obtain ⟨path', hpath', hsame⟩ := List.mem_map.1 hfoundb
      have hbelow := suffix_of_mem_entryTemplates htree hlookUp ha hpath
      have hbelow' := suffix_of_mem_entryTemplates htree hlookUp hb hpath'
      rw [hsame] at hbelow'
      -- Two places of the same depth below which a file is are one.
      have hplaces := List.suffix_or_suffix_of_suffix hbelow hbelow'
      have hlength : (a.name :: place).length = (b.name :: place).length := rfl
      have heq : a.name :: place = b.name :: place := by
        rcases hplaces with hsuffix | hsuffix
        · exact hsuffix.eq_of_length hlength
        · exact (hsuffix.eq_of_length hlength.symm).symm
      exact eq_of_mem_entries htree hlookUp ha hb (List.cons.inj heq).1

end Disk

end Template
