import Template.Proofs.EchoPass

/-! # Echo tags of a text in two parts

A tag that ends in the first part of a text is read there in the same way when the second part is
not there, and nothing is read in the first part that is not read in the whole. So the tags of a
text are those of its parts, unless one lies across the cut.
-/

namespace Template

theorem splitLineBreak_of_append {lineBreak rest more : Text}
    (h : splitLineBreak (lineBreak ++ rest ++ more) = (lineBreak, rest ++ more)) :
    splitLineBreak (lineBreak ++ rest) = (lineBreak, rest) := by
  rcases splitLineBreak_fst_cases (lineBreak ++ rest ++ more) with hfirst | hfirst | hfirst <;>
    rw [h] at hfirst <;> dsimp only at hfirst <;> subst hfirst
  · have hnone := @splitLineBreak_fst_of_append ([] ++ rest) more (by rw [h])
    exact Prod.ext hnone (by have := splitLineBreak_append ([] ++ rest); rwa [hnone] at this)
  · rfl
  · rfl

theorem ite_eq_none_of_imp {α : Type} {p : Prop} [Decidable p] {a b : Option α} (hab : a ≠ none → b ≠ none)
    (h : (if p then b else none) = none) : (if p then a else none) = none := by
  split at h
  · rw [if_pos ‹p›]
    exact Classical.not_not.1 fun hne => hab hne h
  · exact if_neg ‹¬ p›

namespace Markers

section

variable {mark u more blanks expression lead trail after : Text}

theorem blanksThen?_append_ne_none (more : Text) (h : blanksThen? mark u ≠ none) :
    blanksThen? mark (u ++ more) ≠ none := by
  induction u with
  | nil =>
    have hmark : mark = [] := by
      cases mark with
      | nil => rfl
      | cons c mark => exact absurd rfl h
    have hsome := blanksThen?_mark_isSome mark more
    subst hmark
    exact Option.isSome_iff_ne_none.1 hsome
  | cons c u ih =>
    rw [List.cons_append, blanksThen?]
    cases hmore : (if isBlank c then blanksThen? mark (u ++ more) else none) with
    | some found => simp
    | none =>
      have hlater : (if isBlank c then blanksThen? mark u else none) = none :=
        ite_eq_none_of_imp ih hmore
      rw [blanksThen?, hlater] at h
      simp only [ne_eq, Option.map_eq_none_iff, Text.stripPrefix?_eq_none_iff, Classical.not_not] at h ⊢
      exact h.trans (List.prefix_append (c :: u) more)

theorem insideThen?_append_ne_none (more : Text) (h : insideThen? mark u ≠ none) :
    insideThen? mark (u ++ more) ≠ none := by
  obtain ⟨⟨lead, expression, trail, after⟩, hfound⟩ := Option.ne_none_iff_exists'.1 h
  have hsome := @insideThen?_isSome mark (lead ++ expression ++ trail) (after ++ more)
    (by simp [expression_ne_nil_of_insideThen? hfound])
  rw [insideThen?_eq_some hfound]
  simpa only [List.append_assoc, Option.isSome_iff_ne_none] using hsome

/-- What ends before `more` does not depend on it. -/
theorem blanksThen?_of_append (h : blanksThen? mark (u ++ more) = some (blanks, after ++ more)) :
    blanksThen? mark u = some (blanks, after) := by
  induction u generalizing blanks with
  | nil =>
    have hlength := congrArg List.length (blanksThen?_eq_some h)
    simp only [List.nil_append, List.length_append] at hlength
    obtain rfl := List.eq_nil_of_length_eq_zero (l := blanks) (by omega)
    obtain rfl := List.eq_nil_of_length_eq_zero (l := mark) (by omega)
    obtain rfl := List.eq_nil_of_length_eq_zero (l := after) (by omega)
    rfl
  | cons c u ih =>
    rw [List.cons_append, blanksThen?] at h
    rw [blanksThen?]
    cases hmore : (if isBlank c then blanksThen? mark (u ++ more) else none) with
    | some found =>
      obtain ⟨_, _⟩ := found
      rw [hmore] at h
      simp only [Option.some.injEq, Prod.mk.injEq] at h
      obtain ⟨rfl, rfl⟩ := h
      split at hmore
      · rw [if_pos ‹_›, ih hmore]
      · cases hmore
    | none =>
      have hlater : (if isBlank c then blanksThen? mark u else none) = none :=
        ite_eq_none_of_imp (blanksThen?_append_ne_none more) hmore
      rw [hmore] at h
      simp only [Option.map_eq_some_iff, Prod.mk.injEq] at h
      obtain ⟨rest, hrest, rfl, rfl⟩ := h
      have hu : c :: u = mark ++ after := by
        have hwhole := Text.stripPrefix?_eq_some hrest
        rw [← List.append_assoc, ← List.cons_append] at hwhole
        exact List.append_cancel_right hwhole
      rw [hlater, hu, Text.stripPrefix?_append]
      rfl

theorem expressionThen?_of_append
    (h : expressionThen? mark (u ++ more) = some (expression, trail, after ++ more)) :
    expressionThen? mark u = some (expression, trail, after) := by
  induction u generalizing expression with
  | nil =>
    have hlength := congrArg List.length (expressionThen?_eq_some h)
    have hpos := List.length_pos_iff.2 (expression_ne_nil_of_expressionThen? h)
    simp only [List.nil_append, List.length_append] at hlength
    omega
  | cons c u ih =>
    rw [List.cons_append, expressionThen?] at h
    rw [expressionThen?]
    cases hblanks : blanksThen? mark (u ++ more) with
    | some found =>
      obtain ⟨_, _⟩ := found
      rw [hblanks] at h
      simp only [Option.some.injEq, Prod.mk.injEq] at h
      obtain ⟨rfl, rfl, rfl⟩ := h
      rw [blanksThen?_of_append hblanks]
    | none =>
      have hnone : blanksThen? mark u = none :=
        Classical.not_not.1 fun hne => blanksThen?_append_ne_none more hne hblanks
      rw [hblanks] at h
      simp only [Option.map_eq_some_iff, Prod.exists, Prod.mk.injEq] at h
      obtain ⟨e, _, _, hmore, rfl, rfl, rfl⟩ := h
      rw [hnone, ih hmore]
      rfl

theorem insideThen?_of_append
    (h : insideThen? mark (u ++ more) = some (lead, expression, trail, after ++ more)) :
    insideThen? mark u = some (lead, expression, trail, after) := by
  induction u generalizing lead with
  | nil =>
    have hlength := congrArg List.length (insideThen?_eq_some h)
    have hpos := List.length_pos_iff.2 (expression_ne_nil_of_insideThen? h)
    simp only [List.nil_append, List.length_append] at hlength
    omega
  | cons c u ih =>
    rw [List.cons_append, insideThen?] at h
    rw [insideThen?]
    cases hmore : (if isBlank c then insideThen? mark (u ++ more) else none) with
    | some found =>
      obtain ⟨_, _⟩ := found
      rw [hmore] at h
      simp only [Option.some.injEq, Prod.mk.injEq] at h
      obtain ⟨rfl, rfl⟩ := h
      split at hmore
      · rw [if_pos ‹_›, ih hmore]
      · cases hmore
    | none =>
      have hlater : (if isBlank c then insideThen? mark u else none) = none :=
        ite_eq_none_of_imp (insideThen?_append_ne_none more) hmore
      rw [hmore, ← List.cons_append] at h
      simp only [Option.map_eq_some_iff, Prod.exists, Prod.mk.injEq] at h
      obtain ⟨e, t, a, hexpression, rfl, rfl, rfl, rfl⟩ := h
      rw [hlater, expressionThen?_of_append hexpression]
      rfl

end

section

variable {markers : Markers} {escaped : Bool} {u more rest : Text} {tag : EchoTag}

theorem tagAfterOpening?_of_append
    (h : markers.tagAfterOpening? escaped (u ++ more) = some (tag, rest ++ more)) :
    markers.tagAfterOpening? escaped u = some (tag, rest) := by
  unfold tagAfterOpening? at h
  split at h
  · simp only [Option.map_eq_some_iff, Prod.exists, Prod.mk.injEq] at h
    obtain ⟨lead, expression, trail, after, hinside, htag, hrest⟩ := h
    have hafter : after = (splitLineBreak after).1 ++ rest ++ more := by
      rw [List.append_assoc, ← hrest, splitLineBreak_append]
    have hbreak : splitLineBreak ((splitLineBreak after).1 ++ rest) = ((splitLineBreak after).1, rest) := by
      refine @splitLineBreak_of_append _ _ more ?_
      rw [← hafter, ← hrest]
    rw [hafter] at hinside
    have hu := insideThen?_of_append hinside
    have hcontains : Text.contains markers.closing u = true := by
      refine Text.contains_iff.2 ⟨lead ++ expression ++ trail, (splitLineBreak after).1 ++ rest, ?_⟩
      exact (insideThen?_eq_some hu).symm
    rw [tagAfterOpening?, if_pos hcontains, hu, Option.map_some]
    dsimp only
    rw [hbreak, htag]
  · cases h

theorem tagFromOpening?_of_append
    (h : markers.tagFromOpening? escaped (u ++ more) = some (tag, rest ++ more)) :
    markers.tagFromOpening? escaped u = some (tag, rest) := by
  have hu : u = markers.opening ++ (tag.inside ++ (markers.closing ++ (tag.lineBreak ++ rest))) := by
    have hwhole := (tagFromOpening?_eq_some h).2
    rw [← List.append_assoc] at hwhole
    rw [List.append_cancel_right hwhole, EchoTag.unescaped]
    simp only [List.append_assoc]
  rw [hu, List.append_assoc] at h
  rw [hu]
  simp only [tagFromOpening?, Text.stripPrefix?_append, Option.bind_some] at h ⊢
  exact tagAfterOpening?_of_append h

theorem StartsTag.append (h : markers.StartsTag u) (more : Text) : markers.StartsTag (u ++ more) := by
  obtain ⟨inside, after, hinside, rfl⟩ := h
  exact ⟨inside, after ++ more, hinside, by simp only [List.append_assoc]⟩

theorem tag?_eq_none_of_append (h : markers.tag? (u ++ more) = none) : markers.tag? u = none := by
  rw [tag?_eq_none_iff] at h ⊢
  refine ⟨fun hstarts => h.1 (hstarts.append more), ?_⟩
  rintro v rfl hstarts
  exact h.2 (v ++ more) rfl (hstarts.append more)

theorem tag?_escapeMarker : markers.tag? (escapeMarker :: u) =
    (markers.tagFromOpening? true u).or (markers.tagFromOpening? false (escapeMarker :: u)) := by
  have hstrip : Text.stripPrefix? [escapeMarker] (escapeMarker :: u) = some u :=
    Text.stripPrefix?_append [escapeMarker] u
  rw [tag?, hstrip, Option.bind_some]
  cases markers.tagFromOpening? true u <;> rfl

theorem ne_nil_of_tag? (h : markers.tag? (u ++ more) = some (tag, rest ++ more)) : u ≠ [] := by
  rintro rfl
  have hwhole := tag?_eq_some h
  rw [← List.append_assoc] at hwhole
  have hnil : tag.source markers ++ rest = [] := (List.append_cancel_right hwhole).symm
  exact source_ne_nil markers tag (List.append_eq_nil_iff.1 hnil).1

theorem tag?_of_append (h : markers.tag? (u ++ more) = some (tag, rest ++ more)) :
    markers.tag? u = some (tag, rest) := by
  obtain ⟨c, v, rfl⟩ := List.exists_cons_of_ne_nil (ne_nil_of_tag? h)
  by_cases hc : c = escapeMarker
  · subst hc
    rw [List.cons_append, tag?_escapeMarker, Option.or_eq_some_iff] at h
    rw [tag?_escapeMarker, Option.or_eq_some_iff]
    rcases h with h | ⟨hnone, h⟩
    · exact .inl (tagFromOpening?_of_append h)
    · refine .inr ⟨?_, tagFromOpening?_of_append h⟩
      rw [tagFromOpening?_eq_none_iff] at hnone ⊢
      exact fun hstarts => hnone (hstarts.append more)
  · have hhead : ∀ t : Text, (c :: t).head? ≠ some escapeMarker := fun t h => hc (Option.some.inj h)
    rw [List.cons_append, tag?_of_head_ne (hhead _)] at h
    rw [tag?_of_head_ne (hhead v)]
    exact tagFromOpening?_of_append h

theorem nextTag?_cons (c : Char) (t : Text) (h : markers.tag? (c :: t) = none) :
    markers.nextTag? (c :: t) = (markers.nextTag? t).map fun (before, found) => (c :: before, found) := by
  rw [nextTag?, h]

/-- A tag that ends before the cut is the first one of the first part. -/
theorem nextTag?_of_append {before : Text}
    (h : markers.nextTag? (u ++ more) = some (before, tag, rest ++ more)) :
    markers.nextTag? u = some (before, tag, rest) := by
  induction u generalizing before with
  | nil =>
    have hwhole := nextTag?_eq_some h
    rw [← List.append_assoc] at hwhole
    have hnil : before ++ tag.source markers ++ rest = [] := (List.append_cancel_right hwhole).symm
    simp [source_ne_nil] at hnil
  | cons c u ih =>
    cases htag : markers.tag? (c :: (u ++ more)) with
    | some found =>
      obtain ⟨found, after⟩ := found
      rw [List.cons_append, nextTag?, htag] at h
      simp only [Option.some.injEq, Prod.mk.injEq] at h
      obtain ⟨rfl, rfl, rfl⟩ := h
      rw [nextTag?, tag?_of_append (u := c :: u) htag]
    | none =>
      rw [List.cons_append, nextTag?_cons c _ htag] at h
      simp only [Option.map_eq_some_iff, Prod.exists, Prod.mk.injEq] at h
      obtain ⟨b, _, _, hmore, rfl, rfl, rfl⟩ := h
      rw [nextTag?_cons c u (tag?_eq_none_of_append (u := c :: u) htag), ih hmore]
      rfl

/-- A tag that starts after the cut is the first one of the second part. -/
theorem nextTag?_of_append_left {before : Text}
    (h : markers.nextTag? (u ++ more) = some (u ++ before, tag, rest)) :
    markers.nextTag? u = none ∧ markers.nextTag? more = some (before, tag, rest) := by
  induction u with
  | nil => exact ⟨rfl, h⟩
  | cons c u ih =>
    cases htag : markers.tag? (c :: (u ++ more)) with
    | some found =>
      rw [List.cons_append, nextTag?, htag] at h
      cases h
    | none =>
      rw [List.cons_append, nextTag?_cons c _ htag] at h
      simp only [Option.map_eq_some_iff, Prod.exists, Prod.mk.injEq, List.cons_append, List.cons.injEq,
        true_and] at h
      obtain ⟨b, _, _, hmore, rfl, rfl, rfl⟩ := h
      obtain ⟨hu, hlater⟩ := ih hmore
      refine ⟨?_, hlater⟩
      rw [nextTag?_cons c u (tag?_eq_none_of_append (u := c :: u) htag), hu]
      rfl

theorem nextTag?_eq_none_of_append (h : markers.nextTag? (u ++ more) = none) :
    markers.nextTag? u = none ∧ markers.nextTag? more = none := by
  rw [nextTag?_eq_none_iff] at h
  constructor
  · rw [nextTag?_eq_none_iff]
    rintro before inside after rfl
    exact h before inside (after ++ more) (by simp only [List.append_assoc])
  · rw [nextTag?_eq_none_iff]
    rintro before inside after rfl
    exact h (u ++ before) inside after (by simp only [List.append_assoc])

/-- Where the tags of a text that stands at a byte position start and stop. -/
def tagPlaces (markers : Markers) : (offset : Nat) → List (Text × EchoTag) → List (Nat × Nat)
  | _, [] => []
  | offset, (before, tag) :: parts =>
    let start := offset + Text.byteLength before
    let stop := start + Text.byteLength (tag.source markers)
    (start, stop) :: tagPlaces markers stop parts

/-- The tags of two texts as tags of the one text that they make. -/
def joinTags : List (Text × EchoTag) × Text → List (Text × EchoTag) × Text → List (Text × EchoTag) × Text
  | (parts, last), ([], end_) => (parts, last ++ end_)
  | (parts, last), ((before, tag) :: more, end_) => (parts ++ (last ++ before, tag) :: more, end_)

@[simp] theorem joinTags_cons (part : Text × EchoTag) (parts : List (Text × EchoTag)) (last : Text)
    (later : List (Text × EchoTag) × Text) : joinTags (part :: parts, last) later =
      (part :: (joinTags (parts, last) later).1, (joinTags (parts, last) later).2) := by
  obtain ⟨_ | ⟨⟨before, tag⟩, more⟩, end_⟩ := later <;> rfl

@[simp] theorem unsplitTags_cons (before : Text) (tag : EchoTag) (parts : List (Text × EchoTag))
    (last : Text) : markers.unsplitTags ((before, tag) :: parts) last =
      before ++ tag.source markers ++ markers.unsplitTags parts last := by
  simp [unsplitTags]

theorem tagPlaces_joinTags (offset : Nat) (parts : List (Text × EchoTag)) (last : Text)
    (later : List (Text × EchoTag) × Text) :
    markers.tagPlaces offset (joinTags (parts, last) later).1 = markers.tagPlaces offset parts ++
      markers.tagPlaces (offset + Text.byteLength (markers.unsplitTags parts last)) later.1 := by
  induction parts generalizing offset with
  | nil =>
    obtain ⟨_ | ⟨⟨before, tag⟩, more⟩, end_⟩ := later
    · rfl
    · simp [joinTags, tagPlaces, unsplitTags, Nat.add_assoc]
  | cons part parts ih =>
    obtain ⟨before, tag⟩ := part
    simp only [joinTags_cons, tagPlaces, ih, unsplitTags_cons, Text.byteLength_append, Nat.add_assoc,
      List.cons_append]

/-- The tags of a text are those of its parts when none lies across the cut. -/
theorem splitTags_append {offset : Nat}
    (h : ∀ place ∈ markers.tagPlaces offset (markers.splitTags (u ++ more)).1,
      place.2 ≤ offset + Text.byteLength u ∨ offset + Text.byteLength u ≤ place.1) :
    markers.splitTags (u ++ more) = joinTags (markers.splitTags u) (markers.splitTags more) := by
  generalize ht : u ++ more = t at h ⊢
  fun_induction splitTags markers t generalizing u offset with
  | case1 t hnext =>
    rw [← ht] at hnext
    obtain ⟨hu, hmore⟩ := nextTag?_eq_none_of_append hnext
    rw [splitTags_of_none hu, splitTags_of_none hmore, ← ht]
    rfl
  | case2 t before tag rest hnext parts last hsplit ih =>
    have hwhole := nextTag?_eq_some hnext
    simp only [tagPlaces, List.forall_mem_cons] at h
    rw [← ht] at hnext hwhole
    rcases h.1 with hstop | hstart
    · -- The tag ends in the first part.
      rw [Nat.add_assoc, Nat.add_le_add_iff_left, ← Text.byteLength_append] at hstop
      obtain ⟨v, rfl, rfl⟩ := Text.exists_append_of_byteLength_le hwhole.symm hstop
      rw [splitTags_of_some (nextTag?_of_append hnext), joinTags_cons]
      have hjoin := @ih v (offset + Text.byteLength before + Text.byteLength (tag.source markers)) rfl ?_
      · rw [hsplit] at hjoin
        rw [← hjoin]
      · intro place hplace
        have hplace := h.2 place (by rwa [hsplit] at hplace)
        simp only [Text.byteLength_append] at hplace
        omega
    · -- The tag starts in the second part.
      rw [Nat.add_le_add_iff_left] at hstart
      rw [List.append_assoc] at hwhole
      obtain ⟨before, rfl, hmore⟩ := Text.exists_append_of_byteLength_le hwhole hstart
      obtain ⟨hu, hnext⟩ := nextTag?_of_append_left hnext
      rw [splitTags_of_none hu, splitTags_of_some hnext, hsplit]
      rfl

end

end Markers

end Template
