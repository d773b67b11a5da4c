import Template.Proofs.Text
import Template.View.Name

/-! # Normalized view names

A normalized name has the namespace of the name it was made from, and its view part is the same
one with dots for the slashes. Neither the dots nor the slashes are part of the mark between the
two, so the mark stands where it stood.
-/

namespace Template

namespace Text

section

variable {mark t : Text} {c d : Char}

theorem replaceChar_of_not_mem (h : d ∉ t) : replaceChar d c t = t := by
  unfold replaceChar
  rw [@List.map_congr_left _ _ _ _ id, List.map_id]
  exact fun x hx => if_neg fun (heq : x = d) => h (heq ▸ hx)

theorem stripPrefix?_replaceChar (hd : d ∉ mark) (hc : c ∉ mark) (t : Text) :
    stripPrefix? mark (replaceChar d c t) = (stripPrefix? mark t).map (replaceChar d c) := by
  fun_induction stripPrefix? mark t with
  | case1 => rfl
  | case2 => rfl
  | case3 mark m t ih =>
    rw [List.mem_cons, not_or] at hd hc
    have hkept : replaceChar d c (m :: t) = m :: replaceChar d c t := by
      simp [replaceChar, Ne.symm hd.1]
    rw [hkept, stripPrefix?, if_pos rfl, ih hd.2 hc.2]
  | case4 m mark x t hne =>
    rw [List.mem_cons, not_or] at hc
    have hother : m ≠ if x = d then c else x := by
      split
      · exact Ne.symm hc.1
      · exact hne
    rw [Option.map_none]
    change stripPrefix? (m :: mark) ((if x = d then c else x) :: replaceChar d c t) = none
    rw [stripPrefix?, if_neg hother]

/-- A character exchanged for another leaves the places of a mark that has neither. -/
theorem cut?_replaceChar (hd : d ∉ mark) (hc : c ∉ mark) (t : Text) :
    cut? mark (replaceChar d c t) =
      (cut? mark t).map fun (before, after) => (replaceChar d c before, replaceChar d c after) := by
  fun_induction cut? mark t with
  | case1 t rest hstrip =>
    rw [cut?.eq_def, stripPrefix?_replaceChar hd hc, hstrip]
    rfl
  | case2 hstrip =>
    rw [cut?.eq_def, stripPrefix?_replaceChar hd hc, hstrip]
    rfl
  | case3 x t hstrip ih =>
    rw [cut?.eq_def, stripPrefix?_replaceChar hd hc, hstrip]
    change (cut? mark (replaceChar d c t)).map _ = _
    rw [ih, Option.map_map, Option.map_map]
    rfl

/-- What follows the first place of a mark has no part in its being the first. -/
theorem cut?_append_mark {before after : Text} (h : cut? mark t = some (before, after)) (rest : Text) :
    cut? mark (before ++ mark ++ rest) = some (before, rest) := by
  have havoids := avoids_of_cut?_eq_some h
  rw [List.append_assoc]
  apply cut?_of_avoids
  rw [avoids_iff] at havoids ⊢
  intro front back hfront hback hbegins
  refine havoids front back hfront hback ?_
  have hwithin : mark <+: back ++ mark := by
    refine List.prefix_of_prefix_length_le hbegins ?_ (by simp)
    rw [← List.append_assoc]
    exact List.prefix_append _ rest
  rw [← List.append_assoc]
  exact hwithin.trans (List.prefix_append _ after)

end

end Text

namespace ViewName

variable {name scope view : Text}

theorem cut?_normalize (name : Text) : Text.cut? delimiter (normalize name) =
    (Text.cut? delimiter name).map fun (scope, view) => (scope, Text.replaceChar '/' '.' view) := by
  unfold normalize
  cases hcut : Text.cut? delimiter name with
  | none =>
    dsimp only
    rw [Text.cut?_replaceChar (by decide) (by decide), hcut]
    rfl
  | some found => exact Text.cut?_append_mark hcut _

theorem hasHint_normalize (name : Text) : hasHint (normalize name) = hasHint name := by
  unfold hasHint Text.contains
  rw [cut?_normalize, Option.isSome_map]

theorem normalize_of_not_hasHint (h : hasHint name = false) :
    normalize name = Text.replaceChar '/' '.' name := by
  unfold hasHint Text.contains at h
  rw [Option.isSome_eq_false_iff, Option.isNone_iff_eq_none] at h
  rw [normalize, h]

theorem contains_delimiter_replaceChar (view : Text) :
    Text.contains delimiter (Text.replaceChar '/' '.' view) = Text.contains delimiter view := by
  unfold Text.contains
  rw [Text.cut?_replaceChar (by decide) (by decide), Option.isSome_map]

theorem splitHint_normalize (name : Text) : splitHint (normalize name) =
    match splitHint name with
    | .ok (scope, view) => .ok (scope, Text.replaceChar '/' '.' view)
    | .error _ => .error (.invalidName (normalize name)) := by
  unfold splitHint
  rw [cut?_normalize]
  cases Text.cut? delimiter name with
  | none => rfl
  | some found =>
    obtain ⟨scope, view⟩ := found
    have hview : Text.replaceChar '/' '.' view = [] ↔ view = [] := List.map_eq_nil_iff
    simp only [Option.map_some, hview, contains_delimiter_replaceChar]
    split <;> rfl

/-- Dots and slashes lead to the same place. -/
theorem relativePath_replaceChar (view : Text) :
    relativePath (Text.replaceChar '/' '.' view) = relativePath view := by
  unfold relativePath Text.replaceChar
  rw [List.map_map]
  apply List.map_congr_left
  intro c _
  rw [Function.comp_apply]
  split
  case isTrue hslash =>
    rw [hslash]
    decide
  case isFalse => rfl

end ViewName

end Template
