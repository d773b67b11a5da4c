import Mathlib.Control.Monad.Basic
import Template.Path

/-! # Segments of paths

What joining and taking apart does to the segments of a path: a name adds one at the end, and the
path with given components has these as its segments.
-/

namespace Template

namespace Text

variable {d : Char} {t piece : Text}

theorem splitOn_eq (d : Char) (t : Text) : splitOn d t = List.splitOn d t := by
  induction t with
  | nil => rfl
  | cons c t ih =>
    rw [List.splitOn_cons_eq_if_modifyHead, splitOn, ih]
    cases hpieces : List.splitOn d t with
    | nil => exact absurd hpieces (List.splitOn_ne_nil d t)
    | cons piece pieces => simp

theorem mem_of_mem_splitOn {c : Char} (hpiece : piece ∈ splitOn d t) (hc : c ∈ piece) : c ∈ t := by
  fun_induction splitOn d t generalizing piece <;> grind

theorem splitOn_ne_nil (d : Char) (t : Text) : splitOn d t ≠ [] := by
  rw [splitOn_eq]
  exact List.splitOn_ne_nil d t

theorem not_mem_of_mem_splitOn (hpiece : piece ∈ splitOn d t) : d ∉ piece := by
  fun_induction splitOn d t generalizing piece with
  | case1 => simp_all
  | case2 c t hnil => exact absurd hnil (splitOn_ne_nil d t)
  | case3 => grind
  | case4 => grind

theorem splitOn_of_not_mem (h : d ∉ t) : splitOn d t = [t] := by
  rw [splitOn_eq, List.splitOn_eq_singleton h]

theorem splitOn_append_cons (d : Char) (front back : Text) :
    splitOn d (front ++ d :: back) = splitOn d front ++ splitOn d back := by
  simp only [splitOn_eq, List.splitOn_append_cons_self]

theorem join_of_ne_nil {separator : Text} {ts : List Text} (h : ts ≠ []) (t : Text) :
    join separator (t :: ts) = t ++ separator ++ join separator ts := by
  obtain ⟨u, ts, rfl⟩ := List.exists_cons_of_ne_nil h
  rfl

/-- What follows the joined texts follows the last of them. -/
theorem join_concat_append (separator last rest : Text) (front : List Text) :
    join separator (front ++ [last]) ++ rest = join separator (front ++ [last ++ rest]) := by
  induction front with
  | nil => rfl
  | cons t front ih =>
    rw [List.cons_append, List.cons_append, join_of_ne_nil (List.concat_ne_nil last front),
      join_of_ne_nil (List.concat_ne_nil _ front), List.append_assoc, ih]

end Text

namespace Path

variable {dir : Path} {segment name : Text} {segments : List Text} {absolute : Bool}

/-- A part of a path between its slashes. -/
def IsSegment (segment : Text) : Prop := segment ≠ [] ∧ '/' ∉ segment

theorem isSegment_of_mem {p : Path} (h : segment ∈ p.segments) : IsSegment segment := by
  obtain ⟨hmem, hne⟩ := List.mem_filter.1 h
  exact ⟨by simpa using hne, Text.not_mem_of_mem_splitOn hmem⟩

theorem isSegment_of_mem_components {p : Path} (h : segment ∈ p.components) : IsSegment segment := by
  apply isSegment_of_mem (p := p)
  unfold components at h
  split at h
  case h_1 rest _ hrest => grind
  case h_2 => grind

section

variable (hname : IsSegment name)

include hname

theorem isAbsolute_name : isAbsolute ⟨name⟩ = false := by
  obtain ⟨hne, hslash⟩ := hname
  cases name with
  | nil => exact absurd rfl hne
  | cons c name =>
    have hc : c ≠ '/' := fun h => hslash (h ▸ List.mem_cons_self)
    simp [isAbsolute, hc]

theorem join_text_name (dir : Path) :
    (dir.join ⟨name⟩).text = dir.text ++ name ∧ (dir.text = [] ∨ dir.text.getLast? = some '/') ∨
    (dir.join ⟨name⟩).text = dir.text ++ '/' :: name ∧ dir.text ≠ [] := by
  unfold join
  rw [isAbsolute_name hname, if_neg Bool.false_ne_true]
  split
  case isTrue h => exact .inl ⟨rfl, by simpa using h⟩
  case isFalse h => exact .inr ⟨rfl, by grind⟩

theorem prefix_join (dir : Path) : dir.text <+: (dir.join ⟨name⟩).text := by
  rcases join_text_name hname dir with ⟨htext, -⟩ | ⟨htext, -⟩
  · rw [htext]
    exact List.prefix_append _ _
  · rw [htext]
    exact List.prefix_append _ _

theorem join_text_ne_nil : (dir.join ⟨name⟩).text ≠ [] := by
  rcases join_text_name hname dir with ⟨htext, -⟩ | ⟨htext, -⟩
  · rw [htext]
    exact List.append_ne_nil_of_right_ne_nil _ hname.1
  · rw [htext]
    exact List.append_ne_nil_of_right_ne_nil _ (List.cons_ne_nil _ _)

theorem endsInSlash_join : (dir.join ⟨name⟩).endsInSlash = false := by
  have hlast : name.getLast? ≠ some '/' := fun h => hname.2 (List.mem_of_getLast? h)
  have hne : name.getLast? ≠ none := by simpa using hname.1
  unfold endsInSlash
  rcases join_text_name hname dir with ⟨htext, -⟩ | ⟨htext, -⟩ <;> grind

theorem isAbsolute_join : (dir.join ⟨name⟩).isAbsolute = dir.isAbsolute := by
  have hrelative := isAbsolute_name hname
  unfold isAbsolute at hrelative ⊢
  cases hdir : dir.text with
  | nil =>
    rcases join_text_name hname dir with ⟨htext, -⟩ | ⟨-, hne⟩
    · rw [htext, hdir]
      exact hrelative
    · exact absurd hdir hne
  | cons c rest =>
    obtain ⟨more, hmore⟩ := prefix_join hname dir
    rw [← hmore, hdir]
    rfl

/-- A name below a directory is one more segment. -/
theorem segments_join : (dir.join ⟨name⟩).segments = dir.segments ++ [name] := by
  obtain ⟨hne, hslash⟩ := hname
  have hkept : [name].filter (· ≠ []) = [name] := by simp [hne]
  unfold Path.segments
  rcases join_text_name ⟨hne, hslash⟩ dir with ⟨htext, hdir | hdir⟩ | ⟨htext, -⟩
  · rw [htext, hdir, List.nil_append, Text.splitOn_of_not_mem hslash]
    exact hkept
  · obtain ⟨front, hfront⟩ := List.getLast?_eq_some_iff.1 hdir
    rw [htext, hfront, List.append_assoc, List.singleton_append, Text.splitOn_append_cons, Text.splitOn_append_cons,
      Text.splitOn_of_not_mem hslash, List.filter_append, List.filter_append, hkept]
    simp [Text.splitOn]
  · rw [htext, Text.splitOn_append_cons, Text.splitOn_of_not_mem hslash, List.filter_append, hkept]

theorem components_join (hdot : name ≠ ['.']) : (dir.join ⟨name⟩).components = dir.components ++ [name] := by
  unfold components
  rw [isAbsolute_join hname, segments_join hname]
  cases dir.isAbsolute <;> cases dir.segments with
  | nil => simp [hdot]
  | cons first rest => by_cases hfirst : first = ['.'] <;> simp [hdot, hfirst]

theorem parent?_join (hdot : name ≠ ['.']) :
    (dir.join ⟨name⟩).parent? = some (ofComponents dir.isAbsolute dir.components) := by
  unfold parent?
  rw [components_join hname hdot, isAbsolute_join hname,
    if_neg (List.append_ne_nil_of_right_ne_nil _ (List.cons_ne_nil _ _)), List.dropLast_concat]

end

/-! ## Paths with given components -/

theorem join_cons (segment : Text) (segments : List Text) : Text.join ['/'] (segment :: segments) =
    segment ++ segments.flatMap ('/' :: ·) := by
  induction segments generalizing segment with
  | nil => simp [Text.join]
  | cons next segments ih =>
    unfold Text.join
    rw [ih, List.flatMap_cons, List.append_assoc, List.singleton_append, List.cons_append]

theorem splitOn_join {segment : Text} {segments : List Text} (h : ∀ s ∈ segment :: segments, '/' ∉ s) :
    Text.splitOn '/' (Text.join ['/'] (segment :: segments)) = segment :: segments := by
  induction segments generalizing segment with
  | nil => exact Text.splitOn_of_not_mem (h segment List.mem_cons_self)
  | cons next segments ih =>
    rw [List.forall_mem_cons] at h
    unfold Text.join
    rw [List.append_assoc, List.singleton_append, Text.splitOn_append_cons, Text.splitOn_of_not_mem h.1, ih h.2,
      List.singleton_append]

section

variable (hsegments : ∀ s ∈ segments, IsSegment s)

include hsegments

theorem segments_ofComponents : (ofComponents absolute segments).segments = segments := by
  have hkept : segments.filter (· ≠ []) = segments :=
    List.filter_eq_self.2 fun s hs => by simpa using (hsegments s hs).1
  unfold ofComponents Path.segments
  cases segments with
  | nil => cases absolute <;> rfl
  | cons segment segments =>
    have hsplit := splitOn_join fun s hs => (hsegments s hs).2
    cases absolute with
    | false => rw [if_neg Bool.false_ne_true, List.nil_append, hsplit, hkept]
    | true =>
      have hroot := Text.splitOn_append_cons '/' [] (Text.join ['/'] (segment :: segments))
      rw [if_pos rfl, List.singleton_append, ← List.nil_append ('/' :: _), hroot, hsplit]
      exact hkept

theorem isAbsolute_ofComponents : (ofComponents absolute segments).isAbsolute = absolute := by
  unfold ofComponents isAbsolute
  cases absolute with
  | true => rfl
  | false =>
    cases segments with
    | nil => rfl
    | cons segment segments =>
      obtain ⟨⟨hne, hslash⟩, -⟩ := List.forall_mem_cons.1 hsegments
      rw [if_neg Bool.false_ne_true, List.nil_append, join_cons]
      cases segment with
      | nil => exact absurd rfl hne
      | cons c rest =>
        have hc : c ≠ '/' := fun h => hslash (h ▸ List.mem_cons_self)
        simp [hc]

theorem prefix_ofComponents (name : Text) :
    (ofComponents absolute segments).text <+: (ofComponents absolute (segments ++ [name])).text := by
  unfold ofComponents
  apply (List.prefix_append_right_inj _).2
  cases segments with
  | nil => exact List.nil_prefix
  | cons segment segments =>
    rw [List.cons_append, join_cons, join_cons, List.flatMap_append, ← List.append_assoc]
    exact List.prefix_append _ _

theorem ofComponents_text_ne_nil (hne : segments ≠ []) : (ofComponents absolute segments).text ≠ [] := by
  cases segments with
  | nil => exact absurd rfl hne
  | cons segment segments =>
    unfold ofComponents
    rw [join_cons]
    have hsegment := (hsegments segment List.mem_cons_self).1
    simp [hsegment]

end

/-- The components of a path are those of the path that they give. -/
theorem components_ofComponents (p : Path) : (ofComponents p.isAbsolute p.components).components = p.components := by
  have hsegments : ∀ s ∈ p.components, IsSegment s := fun s hs => isSegment_of_mem_components hs
  rw [components, isAbsolute_ofComponents hsegments, segments_ofComponents hsegments]
  cases habsolute : p.isAbsolute with
  | true =>
    have hcomponents : p.components = p.segments.filter (· ≠ ['.']) := by simp [components, habsolute]
    rw [hcomponents]
    simp
  | false =>
    by_cases hdot : ∃ rest, p.segments = ['.'] :: rest
    · obtain ⟨rest, hrest⟩ := hdot
      have hcomponents : p.components = ['.'] :: rest.filter (· ≠ ['.']) := by simp [components, habsolute, hrest]
      rw [hcomponents]
      simp
    · have hcomponents : p.components = p.segments.filter (· ≠ ['.']) := by
        unfold components
        grind
      rw [hcomponents]
      split
      case h_1 rest _ hrest =>
        have hmem : ['.'] ∈ p.segments.filter (· ≠ ['.']) := hrest ▸ List.mem_cons_self
        simp at hmem
      case h_2 => simp

end Path

end Template
