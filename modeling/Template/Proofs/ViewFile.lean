import Template.Proofs.FolderWalk
import Template.Proofs.ViewName
import Template.Transpiler.Folder
import Template.View.Finder

/-! # The file of a view

A view is looked for at paths of its own making, and templates are met on a walk. Both spell a file
below a directory in the same way: the names down to it, joined to the directory one after another.
-/

namespace Template

namespace Path

variable {dir : Path} {name rest : Text} {names : List Text}

/-- The path below a directory by names, outermost first. -/
def below (dir : Path) (names : List Text) : Path := names.foldl (fun path name => path.join ⟨name⟩) dir

@[simp] theorem below_nil (dir : Path) : dir.below [] = dir := rfl

@[simp] theorem below_cons (dir : Path) (name : Text) (names : List Text) :
    dir.below (name :: names) = (dir.join ⟨name⟩).below names := rfl

theorem below_concat (dir : Path) (names : List Text) (name : Text) :
    dir.below (names ++ [name]) = (dir.below names).join ⟨name⟩ := by
  rw [below, List.foldl_append]
  rfl

/-- A path that starts with a name is not absolute. -/
theorem isAbsolute_append (hname : IsSegment name) (rest : Text) : isAbsolute ⟨name ++ rest⟩ = false := by
  obtain ⟨c, t, rfl⟩ := List.exists_cons_of_ne_nil hname.1
  have hc : c ≠ '/' := fun h => hname.2 (h ▸ List.mem_cons_self)
  simp [isAbsolute, hc]

/-- A name and what follows it can be joined in one step or in two. -/
theorem join_join (hname : IsSegment name) (hrest : isAbsolute ⟨rest⟩ = false) :
    dir.join ⟨name ++ '/' :: rest⟩ = (dir.join ⟨name⟩).join ⟨rest⟩ := by
  have hslash : (dir.join ⟨name⟩).endsInSlash = false := endsInSlash_join hname
  have hne : (dir.join ⟨name⟩).text ≠ [] := join_text_ne_nil hname
  have hlater : (dir.join ⟨name⟩).join ⟨rest⟩ = ⟨(dir.join ⟨name⟩).text ++ '/' :: rest⟩ := by
    unfold endsInSlash at hslash
    rw [join, hrest, if_neg Bool.false_ne_true, hslash, decide_eq_false hne]
    rfl
  rw [hlater, join, isAbsolute_append hname, if_neg Bool.false_ne_true, join, isAbsolute_name hname,
    if_neg Bool.false_ne_true]
  split <;> simp only [List.append_assoc, List.cons_append]

/-- The names with slashes between them stand for the path by the names. -/
theorem join_text_eq_below (hnames : ∀ s ∈ name :: names, IsSegment s) :
    dir.join ⟨Text.join ['/'] (name :: names)⟩ = dir.below (name :: names) := by
  induction names generalizing dir name with
  | nil => rfl
  | cons next names ih =>
    rw [List.forall_mem_cons] at hnames
    have hnext := (List.forall_mem_cons.1 hnames.2).1
    have hrest : isAbsolute ⟨Text.join ['/'] (next :: names)⟩ = false := by
      rw [join_cons]
      exact isAbsolute_append hnext _
    rw [Text.join_of_ne_nil (List.cons_ne_nil _ _), List.append_assoc, List.singleton_append, join_join hnames.1 hrest, ih hnames.2]
    rfl

/-- Each name adds to the length of the path. -/
theorem length_le_byteLength_below (hnames : ∀ s ∈ names, IsSegment s) (dir : Path) :
    Text.byteLength dir.text + names.length ≤ Text.byteLength (dir.below names).text := by
  induction names generalizing dir with
  | nil => exact Nat.le_refl _
  | cons name names ih =>
    rw [List.forall_mem_cons] at hnames
    have hname := Text.byteLength_pos hnames.1.1
    have hjoin : Text.byteLength dir.text + 1 ≤ Text.byteLength (dir.join ⟨name⟩).text := by
      rcases join_text_name hnames.1 dir with ⟨htext, -⟩ | ⟨htext, -⟩
      · rw [htext, Text.byteLength_append]
        omega
      · rw [htext, Text.byteLength_append, Text.byteLength_cons]
        omega
    have hrest := ih hnames.2 (dir.join ⟨name⟩)
    rw [below_cons, List.length_cons]
    omega

end Path

namespace Disk

variable {disk : Disk} {place : Location} {path folder : Path} {name : Text} {names : List Text}
  {contents : Contents} {time : Time} {wanted : Text → Bool} {depth : Nat}

/-- A name that leads down can be part of a path. -/
structure LeadsDown (name : Text) : Prop where
  segment : Path.IsSegment name
  ne_dot : name ≠ ['.']
  ne_dotdot : name ≠ ['.', '.']

/-- A path that leads somewhere has no name that is too long. -/
theorem isName_of_locate_join (hname : LeadsDown name)
    (h : disk.locate (folder.join ⟨name⟩) = .ok place) : IsName name := by
  obtain ⟨hfits, -⟩ := locate_eq_ok h
  rw [locate_of_fits hfits, Path.segments_join hname.segment, follow_concat] at h
  cases hfolder : disk.follow (disk.start (folder.join ⟨name⟩).isAbsolute) folder.segments with
  | error error =>
    rw [hfolder] at h
    cases h
  | ok around =>
    rw [hfolder] at h
    change disk.step around name = .ok place at h
    rw [step_of_directory (step_eq_ok h).1] at h
    split at h
    case isTrue => cases h
    case isFalse hshort =>
      exact ⟨hname.segment, hname.ne_dot, hname.ne_dotdot,
        Nat.le_of_not_lt fun hlong => hshort ⟨hname.ne_dot, hname.ne_dotdot, hlong⟩⟩

/-- A path by names leads through the directory it starts from. -/
theorem exists_of_locate_below (hnames : ∀ s ∈ names, LeadsDown s) (hne : folder.text ≠ [])
    (h : disk.locate (folder.below names) = .ok place) :
    ∃ around, disk.locate folder = .ok around ∧ place = names.reverse ++ around ∧
      (∀ s ∈ names, IsName s) ∧ (names ≠ [] → disk.node? around = some .directory) := by
  induction names generalizing folder with
  | nil => exact ⟨place, h, rfl, nofun, fun hnil => absurd rfl hnil⟩
  | cons name names ih =>
    rw [List.forall_mem_cons] at hnames
    have hne' : (folder.join ⟨name⟩).text ≠ [] := Path.join_text_ne_nil hnames.1.segment
    obtain ⟨inner, hinner, rfl, hrest, -⟩ := ih hnames.2 hne' h
    have hname := isName_of_locate_join hnames.1 hinner
    obtain ⟨around, haround, hdirectory, rfl⟩ := exists_of_locate_join hname hne hinner
    refine ⟨around, haround, ?_, List.forall_mem_cons.2 ⟨hname, hrest⟩, fun _ => hdirectory⟩
    rw [List.reverse_cons, List.append_assoc, List.singleton_append]

/-- A walk meets every file with a wanted name that a path by names leads to. -/
theorem mem_templates (htree : disk.IsTree) (hnames : ∀ s ∈ names ++ [name], LeadsDown s) (hne : folder.text ≠ [])
    (hlookUp : disk.lookUp (folder.below (names ++ [name])) = .ok (place, .file contents time))
    (hwanted : wanted name = true) (hdepth : names.length < depth) :
    folder.below (names ++ [name]) ∈ disk.templates wanted depth folder := by
  induction names generalizing folder depth with
  | nil =>
    obtain ⟨depth, rfl⟩ := Nat.exists_eq_succ_of_ne_zero (Nat.ne_of_gt hdepth)
    obtain ⟨hlocate, hnode⟩ := lookUp_eq_ok hlookUp
    obtain ⟨around, haround, rfl, -, hdirectory⟩ := exists_of_locate_below hnames hne hlocate
    have hfolder := lookUp_of_directory haround (hdirectory (List.cons_ne_nil _ _))
    have hentry : (⟨name, false⟩ : Entry) ∈ disk.entries folder :=
      (mem_entries htree hfolder).2 ⟨_, hnode, (decide_eq_false nofun).symm⟩
    rw [templates_succ, List.mem_flatMap]
    refine ⟨_, hentry, ?_⟩
    rw [entryTemplates, if_neg Bool.false_ne_true, if_pos hwanted]
    exact List.mem_singleton.2 rfl
  | cons first names ih =>
    obtain ⟨depth, rfl⟩ := Nat.exists_eq_succ_of_ne_zero (Nat.ne_zero_of_lt hdepth)
    rw [List.cons_append, List.forall_mem_cons] at hnames
    have hne' : (folder.join ⟨first⟩).text ≠ [] := Path.join_text_ne_nil hnames.1.segment
    obtain ⟨hlocate, hnode⟩ := lookUp_eq_ok hlookUp
    obtain ⟨inner, hinner, -, -, hinside⟩ := exists_of_locate_below hnames.2 hne' hlocate
    have hfirst := isName_of_locate_join hnames.1 hinner
    obtain ⟨around, haround, hdirectory, rfl⟩ := exists_of_locate_join hfirst hne hinner
    have hfolder := lookUp_of_directory haround hdirectory
    have hentry : (⟨first, true⟩ : Entry) ∈ disk.entries folder :=
      (mem_entries htree hfolder).2 ⟨_, hinside (by simp), (decide_eq_true rfl).symm⟩
    rw [templates_succ, List.mem_flatMap]
    refine ⟨_, hentry, ?_⟩
    rw [entryTemplates, if_pos rfl]
    exact ih hnames.2 hne' hlookUp (Nat.lt_of_succ_lt_succ hdepth)

end Disk

/-- A walk looks for names that are a stem, a dot and one of the extensions. -/
theorem hasExtension_iff {extensions : List Text} {name : Text} : hasExtension extensions name = true ↔
    ∃ stem extension, extension ∈ extensions ∧ stem ≠ [] ∧ name = stem ++ '.' :: extension := by
  unfold hasExtension
  rw [List.any_eq_true]
  constructor
  · rintro ⟨extension, hmem, hstem⟩
    split at hstem
    case h_1 stem hstrip =>
      rw [Bool.and_eq_true, decide_eq_true_eq, beq_iff_eq] at hstem
      obtain ⟨front, rfl⟩ := List.getLast?_eq_some_iff.1 hstem.2
      refine ⟨front, extension, hmem, ?_, ?_⟩
      · rintro rfl
        exact Nat.lt_irrefl 1 hstem.1
      · rw [Text.stripSuffix?_eq_some hstrip, List.append_assoc]
        rfl
    case h_2 => cases hstem
  · rintro ⟨stem, extension, hmem, hne, rfl⟩
    have hstrip : Text.stripSuffix? extension (stem ++ '.' :: extension) = some (stem ++ ['.']) := by
      rw [Text.stripSuffix?, List.append_cons, List.reverse_append, Text.stripPrefix?_append, Option.map_some,
        List.reverse_reverse]
    have hlength := List.length_pos_iff.2 hne
    refine ⟨extension, hmem, ?_⟩
    rw [hstrip]
    simp only [List.length_append, List.length_singleton, List.getLast?_concat, beq_self_eq_true, Bool.and_true,
      decide_eq_true_eq]
    omega

namespace ViewName

variable {part extension : Text} {parts : List Text}

/-- A part of a name, which dots separate from the others. -/
structure IsPart (part : Text) : Prop where
  ne_nil : part ≠ []
  slash : '/' ∉ part
  dot : '.' ∉ part
  colon : ':' ∉ part

instance (part : Text) : Decidable (IsPart part) :=
  decidable_of_iff (part ≠ [] ∧ '/' ∉ part ∧ '.' ∉ part ∧ ':' ∉ part)
    ⟨fun ⟨hne, hslash, hdot, hcolon⟩ => ⟨hne, hslash, hdot, hcolon⟩, fun h => ⟨h.ne_nil, h.slash, h.dot, h.colon⟩⟩

/-- The name of a view by its parts. -/
def ofParts (parts : List Text) : Text := Text.join ['.'] parts

theorem ofParts_cons (hne : parts ≠ []) (part : Text) : ofParts (part :: parts) = part ++ '.' :: ofParts parts := by
  rw [ofParts, Text.join_of_ne_nil hne, List.append_assoc]
  rfl

theorem not_mem_ofParts {c : Char} (hdot : c ≠ '.') (hparts : ∀ part ∈ parts, c ∉ part) : c ∉ ofParts parts := by
  induction parts with
  | nil => nofun
  | cons part parts ih =>
    rw [List.forall_mem_cons] at hparts
    cases parts with
    | nil => exact hparts.1
    | cons next parts =>
      rw [ofParts_cons (List.cons_ne_nil _ _), List.mem_append, List.mem_cons]
      simp only [hparts.1, hdot, ih hparts.2, or_self, not_false_eq_true]

/-- A name of parts is its own normal form, and stands in no namespace. -/
theorem normalize_ofParts (hparts : ∀ part ∈ parts, IsPart part) :
    normalize (ofParts parts) = ofParts parts ∧ hasHint (ofParts parts) = false := by
  have hcolon : ':' ∉ ofParts parts := not_mem_ofParts (by decide) fun part hpart => (hparts part hpart).colon
  have hslash : '/' ∉ ofParts parts := not_mem_ofParts (by decide) fun part hpart => (hparts part hpart).slash
  have hhint : hasHint (ofParts parts) = false := by
    rw [Bool.eq_false_iff, ne_eq, hasHint, Text.contains_iff]
    exact fun hoccurs => hcolon (hoccurs.subset List.mem_cons_self)
  rw [normalize_of_not_hasHint hhint, Text.replaceChar_of_not_mem hslash]
  exact ⟨rfl, hhint⟩

theorem relativePath_ofParts (hparts : ∀ part ∈ parts, IsPart part) :
    relativePath (ofParts parts) = Text.join ['/'] parts := by
  unfold relativePath
  induction parts with
  | nil => rfl
  | cons part parts ih =>
    rw [List.forall_mem_cons] at hparts
    have hpart : Text.replaceChar '.' '/' part = part := Text.replaceChar_of_not_mem hparts.1.dot
    cases parts with
    | nil => exact hpart
    | cons next parts =>
      rw [ofParts_cons (List.cons_ne_nil _ _), Text.join_of_ne_nil (List.cons_ne_nil _ _), ← ih hparts.2]
      simp only [Text.replaceChar, List.map_append, List.map_cons, if_true, List.append_assoc,
        List.singleton_append] at hpart ⊢
      rw [hpart]

theorem IsPart.leadsDown (h : IsPart part) : Disk.LeadsDown part where
  segment := ⟨h.ne_nil, h.slash⟩
  ne_dot heq := h.dot (heq ▸ List.mem_cons_self)
  ne_dotdot heq := h.dot (heq ▸ List.mem_cons_self)

/-- The file name of a view has its last part before the extension. -/
theorem leadsDown_fileName (h : IsPart part) (hslash : '/' ∉ extension) :
    Disk.LeadsDown (part ++ '.' :: extension) := by
  obtain ⟨c, t, rfl⟩ := List.exists_cons_of_ne_nil h.ne_nil
  have hc : c ≠ '.' := fun heq => h.dot (heq ▸ List.mem_cons_self)
  refine ⟨⟨List.cons_ne_nil _ _, ?_⟩, ?_, ?_⟩
  · have hpart := h.slash
    simp only [List.mem_append, List.mem_cons] at hpart ⊢
    grind
  · exact fun heq => hc (List.cons.inj heq).1
  · exact fun heq => hc (List.cons.inj heq).1

/-- The place of a view below a directory is the path by its parts, the last with the extension. -/
theorem join_file_ofParts {front : List Text} {last : Text} (dir : Path) (hparts : ∀ part ∈ front ++ [last], IsPart part)
    (hslash : '/' ∉ extension) :
    dir.join ⟨relativePath (ofParts (front ++ [last])) ++ '.' :: extension⟩ =
      dir.below (front ++ [last ++ '.' :: extension]) := by
  have hlast := hparts last (List.mem_append_right _ List.mem_cons_self)
  have hnames : ∀ s ∈ front ++ [last ++ '.' :: extension], Path.IsSegment s := by
    intro s hs
    rcases List.mem_append.1 hs with hfront | hfile
    · exact (hparts s (List.mem_append_left _ hfront)).leadsDown.segment
    · rw [List.mem_singleton.1 hfile]
      exact (leadsDown_fileName hlast hslash).segment
  rw [relativePath_ofParts hparts, Text.join_concat_append]
  obtain ⟨name, names, hcons⟩ := List.exists_cons_of_ne_nil (List.concat_ne_nil (last ++ '.' :: extension) front)
  rw [hcons] at hnames ⊢
  exact Path.join_text_eq_below hnames

/-- The file of a view has the extension that the walk looks for. -/
theorem hasExtension_fileName {extensions : List Text} (h : IsPart part) (hextension : extension ∈ extensions) :
    hasExtension extensions (part ++ '.' :: extension) = true :=
  hasExtension_iff.2 ⟨part, extension, hextension, h.ne_nil, rfl⟩

end ViewName

end Template
