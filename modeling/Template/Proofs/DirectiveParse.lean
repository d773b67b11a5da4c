import Template.Proofs.Directive

/-! # The directive tags of a text

What a directive tag is, and which tags a text has, is said here without a search: a tag is the
introducer, a name, spacing and an argument, each as long as it can be, and the tags of a text are
the leftmost ones. The search finds these tags and no others, so a text has one reading.
-/

namespace Template

namespace Text

theorem matchingParen?_zero (t : Text) :
    matchingParen? t 0 = (group? t).map fun found => byteLength found.1 - 1 := by
  unfold matchingParen?
  simp only [dropBytes?, Option.bind_eq_bind, Option.bind_some, Option.pure_def, Nat.zero_add]
  cases group? t <;> rfl

theorem closeGroup?_closes {groups : Nat} {quote : Option Char} {t group rest : Text}
    (h : closeGroup? groups quote t = some (group, rest)) : group.getLast? = some ')' := by
  have cons (c : Char) {g : Text} (hg : g.getLast? = some ')') : (c :: g).getLast? = some ')' := by
    rw [List.getLast?_cons, hg]
    rfl
  fun_induction closeGroup? groups quote t generalizing group rest with
  | case1 => cases h
  | case2 => cases h
  | case3 groups quote d t ih =>
    simp only [Option.map_eq_some_iff, Prod.exists, Prod.mk.injEq] at h
    obtain ⟨g, r, hg, rfl, rfl⟩ := h
    exact cons _ (cons _ (ih hg))
  | case5 =>
    cases h
    rfl
  | case4 groups quote c t _ ih | case6 t groups ih | case7 groups c t _ ih =>
    simp only [Option.map_eq_some_iff, Prod.exists, Prod.mk.injEq] at h
    obtain ⟨g, r, hg, rfl, rfl⟩ := h
    exact cons _ (ih hg)

end Text

theorem not_of_head?_dropWhile {p : Char → Bool} {t : Text} {c : Char}
    (h : c ∈ (t.dropWhile p).head?) : p c = false := by
  have hhead := List.head?_dropWhile_not p t
  rw [Option.mem_def.1 h] at hhead
  exact hhead

namespace DirectiveTag

/-- The argument that a text begins with, and the text after it. It is given when a parenthesis
    stands there and the matching one is found. -/
inductive WritesArgument : Text → DirectiveArgument → (rest : Text) → Prop where
  | absent {rest : Text} (hopens : rest.head? ≠ some '(') : WritesArgument rest .absent rest
  | given {group rest : Text} (hgroup : group ≠ [])
      (hcloses : Text.matchingParen? (group ++ rest) 0 = some (Text.byteLength group - 1)) :
      WritesArgument (group ++ rest) (.given group) rest
  | unclosed {rest : Text} (hopens : rest.head? = some '(')
      (hcloses : Text.matchingParen? rest 0 = none) : WritesArgument rest .unclosed rest

/-- A tag is written at the head of a text, and the text after it; `previous` is the character
    before. The name and the spacing are as long as they can be. -/
inductive StandsAt (previous : Option Char) : Text → DirectiveTag → (rest : Text) → Prop where
  | tag {escaped : Bool} {name spacing after rest : Text} {argument : DirectiveArgument}
      (hprevious : escaped = true ∨ previous.any isWord = false)
      (hname : name ≠ []) (hword : ∀ c ∈ name, isWord c = true)
      (hafterName : ∀ c ∈ (spacing ++ after).head?, isWord c = false)
      (hspacing : ∀ c ∈ spacing, isSpacing c = true)
      (hafterSpacing : ∀ c ∈ after.head?, isSpacing c = false)
      (hargument : WritesArgument after argument rest) :
      StandsAt previous ((if escaped then [escapeMarker] else []) ++
        (directiveIntroducer ++ (name ++ (spacing ++ after)))) ⟨escaped, name, spacing, argument⟩ rest

/-- No tag is written at a place inside `s` when `t` follows it. -/
def NoTag (previous : Option Char) (s t : Text) : Prop :=
  ∀ front back, s = front ++ back → back ≠ [] → ∀ tag rest,
    ¬ StandsAt (front.getLast?.or previous) (back ++ t) tag rest

/-- The text is read as tags, each the leftmost one after the tag before it and with the text
    between them before it, and `last` after them all. -/
inductive Parses : (previous : Option Char) → Text → List (Text × DirectiveTag) → (last : Text) → Prop where
  | last {previous : Option Char} {last : Text} (hnone : NoTag previous last []) :
      Parses previous last [] last
  | tag {previous : Option Char} {before t rest last : Text} {tag : DirectiveTag}
      {parts : List (Text × DirectiveTag)} (hleftmost : NoTag previous before t)
      (htag : StandsAt (before.getLast?.or previous) t tag rest)
      (hparts : Parses tag.source.getLast? rest parts last) :
      Parses previous (before ++ t) ((before, tag) :: parts) last

section

variable {previous : Option Char} {s t before rest last : Text} {tag : DirectiveTag} {c : Char}
  {argument : DirectiveArgument} {parts : List (Text × DirectiveTag)}

theorem writesArgument_argumentOf (t : Text) : WritesArgument t (argumentOf t).1 (argumentOf t).2 := by
  have hparen := Text.matchingParen?_zero t
  unfold argumentOf
  cases hgroup : Text.group? t with
  | some found =>
    obtain ⟨group, rest⟩ := found
    obtain ⟨u, hu⟩ := Text.group?_opens hgroup
    have ht := Text.group?_eq_some hgroup
    subst ht
    rw [hgroup] at hparen
    exact .given (hu ▸ List.cons_ne_nil '(' u) hparen
  | none =>
    rw [hgroup] at hparen
    dsimp only
    split
    case isTrue hopens => exact .unclosed (beq_iff_eq.1 hopens) hparen
    case isFalse hopens => exact .absent fun h => hopens (beq_iff_eq.2 h)

theorem WritesArgument.argumentOf_eq (h : WritesArgument t argument rest) :
    argumentOf t = (argument, rest) := by
  unfold argumentOf
  cases h with
  | absent hopens =>
    cases hgroup : Text.group? t with
    | none => simp only [beq_iff_eq, hopens, if_false]
    | some found =>
      obtain ⟨group, rest⟩ := found
      obtain ⟨u, hu⟩ := Text.group?_opens hgroup
      exact absurd (by rw [Text.group?_eq_some hgroup, hu]; rfl) hopens
  | unclosed hopens hcloses =>
    rw [Text.matchingParen?_zero, Option.map_eq_none_iff] at hcloses
    simp only [hcloses, hopens, beq_self_eq_true, if_true]
  | @given group rest hgroup hcloses =>
    rw [Text.matchingParen?_zero, Option.map_eq_some_iff] at hcloses
    obtain ⟨⟨found, more⟩, hfound, hlength⟩ := hcloses
    obtain ⟨u, hu⟩ := Text.group?_opens hfound
    have hpos : 0 < Text.byteLength found := Text.byteLength_pos (hu ▸ List.cons_ne_nil '(' u)
    have hpos' : 0 < Text.byteLength group := Text.byteLength_pos hgroup
    obtain ⟨rfl, rfl⟩ := Text.append_inj_of_byteLength_eq (Text.group?_eq_some hfound)
      (by dsimp only at hlength; omega)
    rw [hfound]

theorem WritesArgument.closes {group : Text} (h : WritesArgument t (.given group) rest) :
    group.getLast? = some ')' := by
  have hargument := h.argumentOf_eq
  unfold argumentOf at hargument
  split at hargument
  case _ hgroup =>
    cases hargument
    unfold Text.group? at hgroup
    split at hgroup
    · simp only [Option.map_eq_some_iff, Prod.exists, Prod.mk.injEq] at hgroup
      obtain ⟨g, r, hg, rfl, rfl⟩ := hgroup
      rw [List.getLast?_cons, Text.closeGroup?_closes hg]
      rfl
    · cases hgroup
  case _ =>
    simp only [Prod.mk.injEq] at hargument
    split at hargument <;> cases hargument.1

theorem fromIntroducer?_of_standing {escaped : Bool} {name spacing after : Text} (hname : name ≠ [])
    (hword : ∀ c ∈ name, isWord c = true) (hafterName : ∀ c ∈ (spacing ++ after).head?, isWord c = false)
    (hspacing : ∀ c ∈ spacing, isSpacing c = true)
    (hafterSpacing : ∀ c ∈ after.head?, isSpacing c = false)
    (hargument : WritesArgument after argument rest) :
    fromIntroducer? escaped (directiveIntroducer ++ (name ++ (spacing ++ after))) =
      some (⟨escaped, name, spacing, argument⟩, rest) := by
  rw [fromIntroducer?, Text.stripPrefix?_append]
  simp only [takeWhile_append_of_all hword hafterName, dropWhile_append_of_all hword hafterName,
    takeWhile_append_of_all hspacing hafterSpacing, dropWhile_append_of_all hspacing hafterSpacing,
    hname, if_false, hargument.argumentOf_eq]

theorem StandsAt.tag?_eq (h : StandsAt previous t tag rest) : tag? previous t = some (tag, rest) := by
  obtain @⟨escaped, name, spacing, after, _, argument, hprevious, hname, hword, hafterName, hspacing,
    hafterSpacing, hargument⟩ := h
  have hfrom := @fromIntroducer?_of_standing _ _ escaped _ _ _ hname hword hafterName hspacing
    hafterSpacing hargument
  cases escaped with
  | true =>
    rw [tag?, if_pos rfl, Text.stripPrefix?_append]
    exact hfrom
  | false =>
    rw [if_neg Bool.false_ne_true, List.nil_append]
    exact tag?_false_of_fromIntroducer? (hprevious.resolve_left Bool.false_ne_true) hfrom

theorem standsAt_of_tag? (h : tag? previous t = some (tag, rest)) : StandsAt previous t tag rest := by
  have standing : ∀ (escaped : Bool) (u : Text), (escaped = true ∨ previous.any isWord = false) →
      fromIntroducer? escaped u = some (tag, rest) →
      StandsAt previous ((if escaped then [escapeMarker] else []) ++ u) tag rest := by
    intro escaped u hprevious hfrom
    unfold fromIntroducer? at hfrom
    split at hfrom
    · cases hfrom
    case _ v hstrip =>
      dsimp only at hfrom
      split at hfrom
      · cases hfrom
      case _ hname =>
        cases hfrom
        have hu : u = directiveIntroducer ++ (v.takeWhile isWord ++
            ((v.dropWhile isWord).takeWhile isSpacing ++ (v.dropWhile isWord).dropWhile isSpacing)) := by
          rw [List.takeWhile_append_dropWhile, List.takeWhile_append_dropWhile,
            Text.stripPrefix?_eq_some hstrip]
        rw [hu]
        refine .tag hprevious hname (fun c hc => List.all_eq_true.1 (List.all_takeWhile ..) c hc) ?_
          (fun c hc => List.all_eq_true.1 (List.all_takeWhile ..) c hc) ?_ (writesArgument_argumentOf _)
        · rw [List.takeWhile_append_dropWhile]
          exact fun c hc => not_of_head?_dropWhile hc
        · exact fun c hc => not_of_head?_dropWhile hc
  unfold tag? at h
  split at h
  case _ u hstrip =>
    rw [Text.stripPrefix?_eq_some hstrip]
    exact standing true u (.inl rfl) h
  case _ =>
    split at h
    · cases h
    case _ hprevious => exact standing false t (.inr (Bool.eq_false_iff.2 hprevious)) h

theorem standsAt_iff : StandsAt previous t tag rest ↔ tag? previous t = some (tag, rest) :=
  ⟨StandsAt.tag?_eq, standsAt_of_tag?⟩

theorem tag?_eq_none_iff_not_standsAt :
    tag? previous t = none ↔ ∀ tag rest, ¬ StandsAt previous t tag rest := by
  simp only [standsAt_iff, Option.eq_none_iff_forall_ne_some, Prod.forall]

theorem noTag_nil : NoTag previous [] t := by
  intro front back hback hne
  exact absurd (List.append_eq_nil_iff.1 hback.symm).2 hne

theorem noTag_cons :
    NoTag previous (c :: s) t ↔ tag? previous (c :: (s ++ t)) = none ∧ NoTag (some c) s t := by
  rw [tag?_eq_none_iff_not_standsAt]
  constructor
  · intro h
    refine ⟨h [] (c :: s) rfl (List.cons_ne_nil c s), ?_⟩
    rintro front back rfl hback
    rw [← getLast?_cons_or]
    exact h (c :: front) back rfl hback
  · rintro ⟨hhere, hlater⟩ front back hs hback
    cases front with
    | nil =>
      rw [List.nil_append] at hs
      subst hs
      exact hhere
    | cons d front =>
      rw [List.cons_append, List.cons.injEq] at hs
      rw [getLast?_cons_or, ← hs.1]
      exact hlater front back hs.2 hback

theorem next?_eq_none_iff_noTag : next? previous t = none ↔ NoTag previous t [] := by
  induction t generalizing previous with
  | nil => simp only [next?, noTag_nil]
  | cons c t ih =>
    rw [noTag_cons, List.append_nil, ← ih, next?]
    split
    case _ htag => simp only [htag, reduceCtorEq, false_and]
    case _ htag => simp only [htag, Option.map_eq_none_iff, true_and]

/-- The search finds the leftmost tag. -/
theorem next?_eq_some_iff : next? previous t = some (before, tag, rest) ↔
    ∃ u, t = before ++ u ∧ NoTag previous before u ∧
      StandsAt (before.getLast?.or previous) u tag rest := by
  induction t generalizing previous before with
  | nil =>
    simp only [next?, reduceCtorEq, false_iff]
    rintro ⟨u, hu, -, htag⟩
    obtain ⟨rfl, rfl⟩ := List.append_eq_nil_iff.1 hu.symm
    exact source_ne_nil tag (List.append_eq_nil_iff.1 (tag?_eq_some (standsAt_iff.1 htag)).symm).1
  | cons c t ih =>
    rw [next?]
    split
    case _ found after hfound =>
      constructor
      · intro h
        cases h
        exact ⟨c :: t, rfl, noTag_nil, standsAt_iff.2 hfound⟩
      · rintro ⟨u, hu, hleftmost, htag⟩
        cases before with
        | nil =>
          rw [List.nil_append] at hu
          subst hu
          have htag := standsAt_iff.1 htag
          rw [List.getLast?_nil, Option.none_or, hfound, Option.some.injEq, Prod.mk.injEq] at htag
          rw [htag.1, htag.2]
        | cons d before =>
          rw [List.cons_append, List.cons.injEq] at hu
          obtain ⟨rfl, rfl⟩ := hu
          rw [(noTag_cons.1 hleftmost).1] at hfound
          cases hfound
    case _ hnone =>
      simp only [Option.map_eq_some_iff, Prod.exists, Prod.mk.injEq]
      constructor
      · rintro ⟨b, _, _, hnext, rfl, rfl, rfl⟩
        obtain ⟨u, rfl, hleftmost, htag⟩ := ih.1 hnext
        exact ⟨u, rfl, noTag_cons.2 ⟨hnone, hleftmost⟩, getLast?_cons_or c b previous ▸ htag⟩
      · rintro ⟨u, hu, hleftmost, htag⟩
        cases before with
        | nil =>
          rw [List.nil_append] at hu
          subst hu
          exact absurd htag (tag?_eq_none_iff_not_standsAt.1 hnone _ _)
        | cons d before =>
          rw [List.cons_append, List.cons.injEq] at hu
          obtain ⟨rfl, rfl⟩ := hu
          rw [getLast?_cons_or] at htag
          exact ⟨before, tag, rest, ih.2 ⟨u, rfl, (noTag_cons.1 hleftmost).2, htag⟩, rfl, rfl, rfl⟩

theorem Parses.splitAfter_eq (h : Parses previous t parts last) :
    splitAfter previous t = (parts, last) := by
  induction h with
  | last hnone => exact splitAfter_of_none (next?_eq_none_iff_noTag.2 hnone)
  | tag hleftmost htag hparts ih =>
    rw [splitAfter_of_some (next?_eq_some_iff.2 ⟨_, rfl, hleftmost, htag⟩), ih]

theorem parses_splitAfter (previous : Option Char) (t : Text) :
    Parses previous t (splitAfter previous t).1 (splitAfter previous t).2 := by
  fun_induction splitAfter previous t with
  | case1 previous t hnext => exact .last (next?_eq_none_iff_noTag.1 hnext)
  | case2 previous t before tag rest hnext parts last hsplit ih =>
    obtain ⟨u, rfl, hleftmost, htag⟩ := next?_eq_some_iff.1 hnext
    rw [hsplit] at ih
    exact .tag hleftmost htag ih

/-- A text has one reading as tags, and it is the one that is computed. -/
theorem parses_iff : Parses previous t parts last ↔ splitAfter previous t = (parts, last) := by
  constructor
  · exact Parses.splitAfter_eq
  · intro h
    have hparses := parses_splitAfter previous t
    rwa [h] at hparses

theorem source_eq_unescaped (h : tag.escaped = false) : tag.source = tag.unescaped := by
  simp [source, h]

theorem StandsAt.eq_append (h : StandsAt previous t tag rest) : t = tag.source ++ rest :=
  tag?_eq_some (standsAt_iff.1 h)

/-- A tag ends with a character of its name, a space or a tab, or a parenthesis. -/
theorem StandsAt.exists_last (h : StandsAt previous t tag rest) :
    ∃ c ∈ tag.source.getLast?, isWord c = true ∨ isSpacing c = true ∨ c = ')' := by
  obtain @⟨escaped, name, spacing, after, _, argument, _, hname, hword, _, hspacing, _, hargument⟩ := h
  have hname' := List.getLast?_eq_some_getLast hname
  cases argument with
  | given group =>
    refine ⟨')', ?_, .inr (.inr rfl)⟩
    simp [source, unescaped, DirectiveArgument.text?, List.getLast?_append, hargument.closes]
  | absent | unclosed =>
    by_cases hnone : spacing = []
    · refine ⟨name.getLast hname, ?_, .inl (hword _ (List.getLast_mem hname))⟩
      simp [source, unescaped, DirectiveArgument.text?, List.getLast?_append, hnone, hname']
    · refine ⟨spacing.getLast hnone, ?_, .inr (.inl (hspacing _ (List.getLast_mem hnone)))⟩
      simp [source, unescaped, DirectiveArgument.text?, List.getLast?_append,
        List.getLast?_eq_some_getLast hnone]

/-- Every tag of a text stands somewhere in it. -/
theorem Parses.exists_standsAt (h : Parses previous t parts last) {part : Text × DirectiveTag}
    (hpart : part ∈ parts) :
    ∃ front u rest, t = front ++ u ∧ StandsAt (front.getLast?.or previous) u part.2 rest := by
  induction h with
  | last => cases hpart
  | @tag previous before t rest last tag parts hleftmost htag hparts ih =>
    rcases List.mem_cons.1 hpart with rfl | hpart
    · exact ⟨before, t, rest, rfl, htag⟩
    · obtain ⟨front, u, after, rfl, hstands⟩ := ih hpart
      refine ⟨before ++ tag.source ++ front, u, after, ?_, ?_⟩
      · rw [htag.eq_append]
        simp only [List.append_assoc]
      · have hlast : (before ++ tag.source ++ front).getLast?.or previous =
            front.getLast?.or tag.source.getLast? := by
          rw [List.getLast?_append, List.getLast?_append,
            List.getLast?_eq_some_getLast (source_ne_nil tag)]
          cases front.getLast? <;> rfl
        rwa [hlast]

end

end DirectiveTag

end Template
