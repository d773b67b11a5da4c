import Template.Directive.Tag
import Template.Proofs.Text

/-! # Reading directive tags

A directive tag is read where the introducer stands before a word character, unless another
word character stands before it. A balanced argument is found whatever follows it.
-/

namespace Template

namespace Text

theorem closeGroup?_append {groups : Nat} {quote : Option Char} {t group rest : Text} (more : Text)
    (h : closeGroup? groups quote t = some (group, rest)) :
    closeGroup? groups quote (t ++ more) = some (group, rest ++ more) := by
  fun_induction closeGroup? groups quote t generalizing group rest with
  | case1 => cases h
  | case2 => cases h
  | case3 groups quote d t ih =>
    simp only [Option.map_eq_some_iff, Prod.exists, Prod.mk.injEq] at h
    obtain ⟨g, r, hg, rfl, rfl⟩ := h
    simp only [List.cons_append, closeGroup?, if_true, ih hg, Option.map_some]
  | case4 groups quote c t hc ih =>
    simp only [Option.map_eq_some_iff, Prod.exists, Prod.mk.injEq] at h
    obtain ⟨g, r, hg, rfl, rfl⟩ := h
    rw [List.cons_append, closeGroup?.eq_def]
    simp only [hc, if_false, ih hg, Option.map_some]
  | case5 =>
    cases h
    simp only [List.cons_append, closeGroup?, if_true]
  | case6 t groups ih =>
    simp only [Option.map_eq_some_iff, Prod.exists, Prod.mk.injEq] at h
    obtain ⟨g, r, hg, rfl, rfl⟩ := h
    simp only [List.cons_append, closeGroup?, if_true, ih hg, Option.map_some]
  | case7 groups c t hc ih =>
    simp only [Option.map_eq_some_iff, Prod.exists, Prod.mk.injEq] at h
    obtain ⟨g, r, hg, rfl, rfl⟩ := h
    simp only [List.cons_append, closeGroup?, hc, if_false]
    rw [ih hg]
    rfl

theorem group?_append {t group rest : Text} (more : Text) (h : group? t = some (group, rest)) :
    group? (t ++ more) = some (group, rest ++ more) := by
  unfold group? at h
  split at h
  · simp only [Option.map_eq_some_iff, Prod.exists, Prod.mk.injEq] at h
    obtain ⟨g, r, hg, rfl, rfl⟩ := h
    simp only [List.cons_append, group?, closeGroup?_append more hg, Option.map_some]
  · cases h

theorem group?_opens {t group rest : Text} (h : group? t = some (group, rest)) :
    ∃ u, group = '(' :: u := by
  unfold group? at h
  split at h
  · simp only [Option.map_eq_some_iff, Prod.exists, Prod.mk.injEq] at h
    obtain ⟨g, r, -, rfl, rfl⟩ := h
    exact ⟨g, rfl⟩
  · cases h

/-- A text whose first parenthesis is closed by its last character is a balanced group. -/
theorem group?_of_matchingParen? {t : Text}
    (h : matchingParen? t 0 = some (byteLength t - 1)) : group? t = some (t, []) := by
  simp only [matchingParen?, dropBytes?, Option.bind_eq_bind, Option.bind_some,
    Option.bind_eq_some_iff, Prod.exists, Option.pure_def, Option.some.injEq, Nat.zero_add] at h
  obtain ⟨group, rest, hgroup, hlength⟩ := h
  have ht := group?_eq_some hgroup
  have hpos : 0 < byteLength group := by
    obtain ⟨u, hu⟩ := group?_opens hgroup
    exact byteLength_pos (hu ▸ List.cons_ne_nil '(' u)
  have hrest : rest = [] := by
    apply eq_nil_of_byteLength_eq_zero
    rw [ht, byteLength_append] at hlength
    omega
  rw [hrest, List.append_nil] at ht
  rw [hgroup, hrest, ← ht]

end Text

/-- A stretch of characters that pass ends where one that does not pass follows. -/
theorem takeWhile_append_of_all {p : Char → Bool} {s t : Text} (hs : ∀ c ∈ s, p c = true)
    (ht : ∀ c ∈ t.head?, p c = false) : (s ++ t).takeWhile p = s := by
  rw [List.takeWhile_append_of_pos hs]
  cases t with
  | nil => simp
  | cons c t => simp [ht c rfl]

theorem dropWhile_append_of_all {p : Char → Bool} {s t : Text} (hs : ∀ c ∈ s, p c = true)
    (ht : ∀ c ∈ t.head?, p c = false) : (s ++ t).dropWhile p = t := by
  rw [List.dropWhile_append_of_pos hs]
  cases t with
  | nil => rfl
  | cons c t => simp [ht c rfl]

theorem getLast?_cons_or (c : Char) (t : Text) (previous : Option Char) :
    (c :: t).getLast?.or previous = t.getLast?.or (some c) := by
  cases t with
  | nil => rfl
  | cons d t => simp [List.getLast?_cons]

namespace DirectiveTag

/-- An introducer and a word character stand at the head of the text. -/
def StartsHead (t : Text) : Prop :=
  ∃ c u, t = '<' :: '@' :: c :: u ∧ isWord c = true

theorem fromIntroducer?_eq_none_iff {escaped : Bool} {t : Text} :
    fromIntroducer? escaped t = none ↔ ¬ StartsHead t := by
  unfold fromIntroducer?
  split
  case _ hstrip =>
    simp only [true_iff]
    rintro ⟨c, u, rfl, -⟩
    exact Text.stripPrefix?_eq_none_iff.1 hstrip (List.prefix_append directiveIntroducer (c :: u))
  case _ u hstrip =>
    have ht : t = '<' :: '@' :: u := Text.stripPrefix?_eq_some hstrip
    subst ht
    simp only [ite_eq_left_iff, reduceCtorEq, imp_false, Classical.not_not]
    cases u with
    | nil => simp [StartsHead]
    | cons c u => cases hc : isWord c <;> simp [StartsHead, hc]

theorem not_startsHead_of_ne {c : Char} {t : Text} (h : c ≠ '<') : ¬ StartsHead (c :: t) := by
  rintro ⟨d, u, hu, -⟩
  exact h (List.cons.inj hu).1

theorem tag?_eq_none_iff {previous : Option Char} {t : Text} :
    tag? previous t = none ↔
      (∀ u, t = escapeMarker :: u → ¬ StartsHead u) ∧
        (previous.any isWord = true ∨ ¬ StartsHead t) := by
  unfold tag?
  split
  case _ u hstrip =>
    have ht : t = escapeMarker :: u := Text.stripPrefix?_eq_some hstrip
    subst ht
    rw [fromIntroducer?_eq_none_iff]
    constructor
    · intro h
      refine ⟨fun v hv => ?_, .inr (not_startsHead_of_ne (by decide))⟩
      exact (List.cons.inj hv).2 ▸ h
    · intro h
      exact h.1 u rfl
  case _ hstrip =>
    have hescape : ∀ u, t = escapeMarker :: u → ¬ StartsHead u := by
      rintro u rfl
      exact absurd (List.prefix_append [escapeMarker] u) (Text.stripPrefix?_eq_none_iff.1 hstrip)
    split
    case isTrue hprevious => simp only [hprevious, true_or, and_true, true_iff]; exact hescape
    case isFalse hprevious =>
      simp only [fromIntroducer?_eq_none_iff, hprevious, Bool.false_eq_true, false_or]
      exact ⟨fun h => ⟨hescape, h⟩, fun h => h.2⟩

theorem tag?_eq_none_of_start {t : Text} (previous : Option Char) (h : tag? none t = none) :
    tag? previous t = none := by
  rw [tag?_eq_none_iff] at h ⊢
  exact ⟨h.1, .inr (h.2.resolve_left (by simp))⟩

/-- A directive tag starts with its introducer, which an escape marker may stand before. -/
theorem exists_of_tag?_ne_none {previous : Option Char} {t : Text} (h : tag? previous t ≠ none) :
    (∃ u, t = '<' :: '@' :: u) ∨ ∃ u, t = '@' :: '<' :: '@' :: u := by
  obtain ⟨⟨tag, rest⟩, htag⟩ := Option.ne_none_iff_exists'.1 h
  rw [tag?_eq_some htag, DirectiveTag.source]
  cases tag.escaped with
  | false => exact .inl ⟨_, rfl⟩
  | true => exact .inr ⟨_, rfl⟩

theorem next?_append_of_avoids {s t : Text} (previous : Option Char)
    (h : Text.Avoids (fun u => tag? none u ≠ none) s t) :
    next? previous (s ++ t) =
      (next? (s.getLast?.or previous) t).map fun (before, found) => (s ++ before, found) := by
  induction s generalizing previous with
  | nil =>
    rw [List.nil_append, List.getLast?_nil, Option.none_or]
    cases next? previous t <;> rfl
  | cons c s ih =>
    rw [List.cons_append, next?, tag?_eq_none_of_start previous (Classical.not_not.1 h.1), getLast?_cons_or]
    simp only [ih _ h.2, Option.map_map]
    rfl

theorem next?_eq_none_iff {previous : Option Char} {t : Text} :
    next? previous t = none ↔ ∀ before c after, t = before ++ '<' :: '@' :: c :: after →
      isWord c = true → (before.getLast?.or previous).any isWord = true := by
  induction t generalizing previous with
  | nil => simp [next?]
  | cons d t ih =>
    have hsplit : next? previous (d :: t) = none ↔
        tag? previous (d :: t) = none ∧ next? (some d) t = none := by
      rw [next?]
      split <;> simp_all
    rw [hsplit, tag?_eq_none_iff, ih]
    constructor
    · rintro ⟨⟨-, hhere⟩, hlater⟩ before c after ht hc
      cases before with
      | nil => exact hhere.resolve_right (Classical.not_not.2 ⟨c, after, ht, hc⟩)
      | cons e before =>
        rw [List.cons_append, List.cons.injEq] at ht
        rw [← ht.1, getLast?_cons_or]
        exact hlater before c after ht.2 hc
    · intro h
      refine ⟨⟨?_, ?_⟩, ?_⟩
      · rintro u hu ⟨c, v, rfl, hc⟩
        have hword : isWord escapeMarker = true := by simpa using h [escapeMarker] c v hu hc
        exact absurd hword (by decide +kernel)
      · refine Classical.or_iff_not_imp_right.2 fun hstarts => ?_
        obtain ⟨c, u, hu, hc⟩ := Classical.not_not.1 hstarts
        exact h [] c u hu hc
      · rintro before c after rfl hc
        rw [← getLast?_cons_or]
        exact h (d :: before) c after rfl hc

section

variable {previous : Option Char} {escaped : Bool} {name spacing group t before rest : Text}
  {tag : DirectiveTag}

/-- The head of a tag and a balanced argument are read as they were written. -/
theorem fromIntroducer?_of_parts (hname : name ≠ []) (hword : ∀ c ∈ name, isWord c = true)
    (hspacing : ∀ c ∈ spacing, isSpacing c = true) (hgroup : Text.group? group = some (group, [])) :
    fromIntroducer? escaped (directiveIntroducer ++ (name ++ (spacing ++ (group ++ rest)))) =
      some (⟨escaped, name, spacing, .given group⟩, rest) := by
  obtain ⟨u, rfl⟩ := Text.group?_opens hgroup
  have hafter : ∀ c ∈ (spacing ++ ('(' :: u ++ rest)).head?, isWord c = false := by
    cases spacing with
    | nil =>
      intro c hc
      cases hc
      decide +kernel
    | cons d spacing =>
      intro c hc
      cases hc
      have hd : d = ' ' ∨ d = '\t' := by simpa [isSpacing] using hspacing d List.mem_cons_self
      rcases hd with rfl | rfl <;> decide +kernel
  have hargument : argumentOf ('(' :: u ++ rest) = (.given ('(' :: u), rest) := by
    rw [argumentOf, Text.group?_append rest hgroup]
    rfl
  rw [fromIntroducer?, Text.stripPrefix?_append]
  simp only [takeWhile_append_of_all hword hafter, dropWhile_append_of_all hword hafter, hname,
    if_false]
  rw [takeWhile_append_of_all hspacing, dropWhile_append_of_all hspacing, hargument]
  all_goals
    intro c hc
    cases hc
    decide

theorem tag?_false_of_fromIntroducer? (hprevious : previous.any isWord = false)
    (h : fromIntroducer? false t = some (tag, rest)) : tag? previous t = some (tag, rest) := by
  have ht := (fromIntroducer?_eq_some h).2
  have hstrip : Text.stripPrefix? [escapeMarker] t = none := by
    rw [Text.stripPrefix?_eq_none_iff, ht]
    rintro ⟨u, hu⟩
    cases hu
  rw [tag?, hstrip]
  simp only [hprevious, Bool.false_eq_true, if_false, h]

theorem next?_of_tag? (h : tag? previous t = some (tag, rest)) :
    next? previous t = some ([], tag, rest) := by
  cases t with
  | nil =>
    have := tag?_eq_some h
    exact absurd (List.append_eq_nil_iff.1 this.symm).1 (source_ne_nil tag)
  | cons c t => rw [next?, h]

theorem splitAfter_of_none (h : next? previous t = none) : splitAfter previous t = ([], t) := by
  rw [splitAfter]
  split
  · rfl
  · simp_all

theorem splitAfter_of_some (h : next? previous t = some (before, tag, rest)) :
    splitAfter previous t = ((before, tag) :: (splitAfter tag.source.getLast? rest).1,
      (splitAfter tag.source.getLast? rest).2) := by
  rw [splitAfter]
  split
  · simp_all
  case _ b g r h' =>
    rw [h] at h'
    cases h'
    rfl

end

end DirectiveTag

end Template
