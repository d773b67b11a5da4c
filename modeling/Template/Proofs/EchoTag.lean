import Template.Echo.Tag
import Template.Proofs.Span

/-! # Reading echo tags

An echo tag is read at a place exactly if an opening marker stands there and at least one
character separates it from some closing marker. When no closing marker begins inside, the
parts of the tag are the ones it was written with.
-/

namespace Template.Markers

section

variable {mark s t blanks after : Text}

theorem blanksThen?_mark_isSome (mark after : Text) :
    (blanksThen? mark (mark ++ after)).isSome = true := by
  cases h : mark ++ after with
  | nil =>
    rw [List.append_eq_nil_iff] at h
    rw [h.1]
    rfl
  | cons c t =>
    have hstrip : Text.stripPrefix? mark (c :: t) = some after := by
      rw [← h, Text.stripPrefix?_append]
    unfold blanksThen?
    split
    · rfl
    · rw [hstrip]
      rfl

theorem blanksThen?_of_blanks (hblanks : ∀ c ∈ blanks, isBlank c = true)
    (hmark : ∀ c ∈ (mark ++ after).head?, isBlank c = false) :
    blanksThen? mark (blanks ++ (mark ++ after)) = some (blanks, after) := by
  induction blanks with
  | nil =>
    have hstrip := Text.stripPrefix?_append mark after
    rw [List.nil_append]
    cases h : mark ++ after with
    | nil =>
      rw [h] at hstrip
      rw [blanksThen?, hstrip]
      rfl
    | cons c t =>
      rw [h] at hstrip hmark
      rw [blanksThen?, hmark c rfl, hstrip]
      rfl
  | cons c blanks ih =>
    rw [List.forall_mem_cons] at hblanks
    rw [List.cons_append, blanksThen?, hblanks.1, if_pos rfl, ih hblanks.2]

/-- Blanks cannot lead to the mark through a text that ends in something else and in which the
    mark does not begin. -/
theorem blanksThen?_eq_none_of_avoids (hs : Text.Avoids (mark <+: ·) s t)
    (hlast : ∃ c ∈ s.getLast?, isBlank c = false) : blanksThen? mark (s ++ t) = none := by
  induction s with
  | nil =>
    obtain ⟨c, hc, _⟩ := hlast
    cases hc
  | cons c s ih =>
    rw [List.cons_append, blanksThen?, Text.stripPrefix?_eq_none_iff.2 hs.1]
    have hmore : (if isBlank c then blanksThen? mark (s ++ t) else none) = none := by
      cases s with
      | nil =>
        obtain ⟨d, hd, hblank⟩ := hlast
        rw [List.getLast?_singleton, Option.mem_some] at hd
        rw [hd, hblank]
        rfl
      | cons d s =>
        split
        · exact ih hs.2 hlast
        · rfl
    rw [hmore]
    rfl

theorem expressionThen?_isSome (hs : s ≠ []) :
    (expressionThen? mark (s ++ (mark ++ after))).isSome = true := by
  induction s with
  | nil => exact absurd rfl hs
  | cons c s ih =>
    rw [List.cons_append, expressionThen?]
    split
    · rfl
    case _ hblanks =>
      cases s with
      | nil =>
        have := blanksThen?_mark_isSome mark after
        rw [List.nil_append] at hblanks
        rw [hblanks] at this
        cases this
      | cons d s =>
        rw [Option.isSome_map]
        exact ih (List.cons_ne_nil d s)

theorem insideThen?_isSome (hs : s ≠ []) :
    (insideThen? mark (s ++ (mark ++ after))).isSome = true := by
  obtain ⟨c, s, rfl⟩ := List.exists_cons_of_ne_nil hs
  rw [List.cons_append, insideThen?]
  split
  · rfl
  · rw [Option.isSome_map]
    exact expressionThen?_isSome (List.cons_ne_nil c s)

theorem expressionThen?_of_avoids {expression trail : Text}
    (havoids : Text.Avoids (mark <+: ·) (expression ++ trail) (mark ++ after))
    (hlast : ∃ c ∈ expression.getLast?, isBlank c = false)
    (htrail : ∀ c ∈ trail, isBlank c = true)
    (hmark : ∀ c ∈ (mark ++ after).head?, isBlank c = false) :
    expressionThen? mark (expression ++ (trail ++ (mark ++ after))) =
      some (expression, trail, after) := by
  induction expression with
  | nil =>
    obtain ⟨c, hc, _⟩ := hlast
    cases hc
  | cons c expression ih =>
    rw [List.cons_append, expressionThen?]
    cases expression with
    | nil => rw [List.nil_append, blanksThen?_of_blanks htrail hmark]
    | cons d expression =>
      have htail : Text.Avoids (mark <+: ·) (d :: expression) (trail ++ (mark ++ after)) :=
        (Text.avoids_append.1 havoids.2).1
      rw [blanksThen?_eq_none_of_avoids htail hlast, ih havoids.2 hlast]
      rfl

theorem insideThen?_of_avoids {lead expression trail : Text}
    (hlead : ∀ c ∈ lead, isBlank c = true)
    (hhead : ∃ c ∈ expression.head?, isBlank c = false)
    (hlast : ∃ c ∈ expression.getLast?, isBlank c = false)
    (htrail : ∀ c ∈ trail, isBlank c = true)
    (havoids : Text.Avoids (mark <+: ·) (expression ++ trail) (mark ++ after))
    (hmark : ∀ c ∈ (mark ++ after).head?, isBlank c = false) :
    insideThen? mark (lead ++ (expression ++ (trail ++ (mark ++ after)))) =
      some (lead, expression, trail, after) := by
  induction lead with
  | nil =>
    have hexpression := expressionThen?_of_avoids havoids hlast htrail hmark
    obtain ⟨c, hc, hblank⟩ := hhead
    obtain ⟨u, rfl⟩ := List.head?_eq_some_iff.1 hc
    rw [List.cons_append] at hexpression
    rw [List.nil_append, List.cons_append, insideThen?, hblank, hexpression]
    rfl
  | cons c lead ih =>
    rw [List.forall_mem_cons] at hlead
    rw [List.cons_append, insideThen?, hlead.1, if_pos rfl, ih hlead.2]

theorem exists_blanks_after (h : ∃ c ∈ t, isBlank c = false) :
    ∃ front trail, t = front ++ trail ∧ (∃ c ∈ front.getLast?, isBlank c = false) ∧
      ∀ c ∈ trail, isBlank c = true := by
  induction t with
  | nil =>
    obtain ⟨c, hc, _⟩ := h
    cases hc
  | cons c t ih =>
    by_cases hmore : ∃ c ∈ t, isBlank c = false
    · obtain ⟨front, trail, rfl, ⟨d, hd, hblank⟩, htrail⟩ := ih hmore
      refine ⟨c :: front, trail, rfl, ⟨d, ?_, hblank⟩, htrail⟩
      cases front with
      | nil => cases hd
      | cons e front => rwa [List.getLast?_cons_cons]
    · obtain ⟨d, hd, hblank⟩ := h
      have htrail : ∀ e ∈ t, isBlank e = true := fun e he =>
        Bool.of_not_eq_false fun hfalse => hmore ⟨e, he, hfalse⟩
      rcases List.mem_cons.1 hd with rfl | hd
      · exact ⟨[d], t, rfl, ⟨d, rfl, hblank⟩, htrail⟩
      · exact absurd ⟨d, hd, hblank⟩ hmore

/-- A text that is not all blanks is an expression with blanks around it. -/
theorem exists_blanks_around (h : ∃ c ∈ t, isBlank c = false) :
    ∃ lead expression trail, t = lead ++ (expression ++ trail) ∧
      (∀ c ∈ lead, isBlank c = true) ∧ (∃ c ∈ expression.head?, isBlank c = false) ∧
      (∃ c ∈ expression.getLast?, isBlank c = false) ∧ ∀ c ∈ trail, isBlank c = true := by
  induction t with
  | nil =>
    obtain ⟨c, hc, _⟩ := h
    cases hc
  | cons c t ih =>
    cases hblank : isBlank c with
    | true =>
      obtain ⟨d, hd, hfalse⟩ := h
      rcases List.mem_cons.1 hd with rfl | hd
      · rw [hblank] at hfalse
        cases hfalse
      · obtain ⟨lead, expression, trail, rfl, hlead, hparts⟩ := ih ⟨d, hd, hfalse⟩
        exact ⟨c :: lead, expression, trail, rfl, List.forall_mem_cons.2 ⟨hblank, hlead⟩, hparts⟩
    | false =>
      obtain ⟨front, trail, ht, hlast, htrail⟩ := exists_blanks_after h
      refine ⟨[], front, trail, ht, by simp, ⟨c, ?_, hblank⟩, hlast, htrail⟩
      cases front with
      | nil =>
        obtain ⟨d, hd, _⟩ := hlast
        cases hd
      | cons d front =>
        rw [List.cons_append, List.cons.injEq] at ht
        rw [ht.1]
        rfl

theorem expression_ne_nil_of_expressionThen? {expression trail : Text}
    (h : expressionThen? mark t = some (expression, trail, after)) : expression ≠ [] := by
  cases t with
  | nil => cases h
  | cons c t =>
    unfold expressionThen? at h
    split at h
    · cases h
      exact List.cons_ne_nil c []
    · simp only [Option.map_eq_some_iff, Prod.exists, Prod.mk.injEq] at h
      obtain ⟨_, _, _, _, rfl, _⟩ := h
      exact List.cons_ne_nil c _

theorem expression_ne_nil_of_insideThen? {lead expression trail : Text}
    (h : insideThen? mark t = some (lead, expression, trail, after)) : expression ≠ [] := by
  induction t generalizing lead with
  | nil => cases h
  | cons c t ih =>
    unfold insideThen? at h
    split at h
    case _ hmore =>
      cases h
      split at hmore
      · exact ih hmore
      · cases hmore
    case _ =>
      simp only [Option.map_eq_some_iff, Prod.exists, Prod.mk.injEq] at h
      obtain ⟨_, _, _, hexpression, _, rfl, _⟩ := h
      exact expression_ne_nil_of_expressionThen? hexpression

end

/-- A whole tag stands at the head of the text: an opening marker, at least one character, and
    a closing marker. -/
def StartsTag (markers : Markers) (t : Text) : Prop :=
  ∃ inside after, inside ≠ [] ∧
    t = markers.opening ++ (inside ++ (markers.closing ++ after))

section

variable {markers : Markers} {escaped : Bool} {s t rest : Text} {tag : EchoTag}

theorem tagFromOpening?_isSome_iff :
    (markers.tagFromOpening? escaped t).isSome = true ↔ markers.StartsTag t := by
  constructor
  · intro h
    obtain ⟨⟨tag, rest⟩, htag⟩ := Option.isSome_iff_exists.1 h
    refine ⟨tag.inside, tag.lineBreak ++ rest, ?_, ?_⟩
    · obtain ⟨u, -, hafter⟩ := Option.bind_eq_some_iff.1 htag
      unfold tagAfterOpening? at hafter
      split at hafter
      · simp only [Option.map_eq_some_iff, Prod.exists, Prod.mk.injEq] at hafter
        obtain ⟨_, _, _, _, hinside, rfl, _⟩ := hafter
        simp [EchoTag.inside, expression_ne_nil_of_insideThen? hinside]
      · cases hafter
    · rw [(tagFromOpening?_eq_some htag).2]
      simp only [EchoTag.unescaped, List.append_assoc]
  · rintro ⟨inside, after, hinside, rfl⟩
    have hcontains : Text.contains markers.closing (inside ++ (markers.closing ++ after)) = true :=
      Text.contains_iff.2 ⟨inside, after, by simp only [List.append_assoc]⟩
    simp only [tagFromOpening?, Text.stripPrefix?_append, Option.bind_some, tagAfterOpening?,
      hcontains, if_true, Option.isSome_map, insideThen?_isSome hinside]

theorem tagFromOpening?_eq_none_iff :
    markers.tagFromOpening? escaped t = none ↔ ¬ markers.StartsTag t := by
  rw [← tagFromOpening?_isSome_iff, Option.not_isSome_iff_eq_none]

/-- A tag is read where a whole tag starts, or where one starts after the escape marker. -/
theorem tag?_eq_none_iff :
    markers.tag? t = none ↔
      ¬ markers.StartsTag t ∧ ∀ u, t = escapeMarker :: u → ¬ markers.StartsTag u := by
  have hescape : (Text.stripPrefix? [escapeMarker] t).bind (markers.tagFromOpening? true) = none ↔
      ∀ u, t = escapeMarker :: u → ¬ markers.StartsTag u := by
    rw [Option.bind_eq_none_iff]
    constructor
    · rintro h u rfl
      exact tagFromOpening?_eq_none_iff.1 (h u (Text.stripPrefix?_append [escapeMarker] u))
    · intro h u hu
      exact tagFromOpening?_eq_none_iff.2 (h u (Text.stripPrefix?_eq_some hu))
  unfold tag?
  split
  case _ found hfound =>
    constructor
    · intro h
      cases h
    · rintro ⟨-, h⟩
      rw [hescape.2 h] at hfound
      cases hfound
  case _ hnone => rw [tagFromOpening?_eq_none_iff, ← hescape, and_iff_left hnone]

/-- A tag starts with its opening marker, which an escape marker may stand before. -/
theorem opening_isPrefix_of_tag?_ne_none (h : markers.tag? t ≠ none) :
    markers.opening <+: t ∨ escapeMarker :: markers.opening <+: t := by
  obtain ⟨⟨tag, rest⟩, htag⟩ := Option.ne_none_iff_exists'.1 h
  rw [tag?_eq_some htag, EchoTag.source, EchoTag.unescaped]
  cases tag.escaped with
  | false => exact .inl ⟨_, by simp only [Bool.false_eq_true, if_false, List.nil_append, List.append_assoc]; rfl⟩
  | true => exact .inr ⟨_, by simp only [if_true, List.append_assoc]; rfl⟩

theorem nextTag?_append_of_avoids (h : Text.Avoids (fun u => markers.tag? u ≠ none) s t) :
    markers.nextTag? (s ++ t) = (markers.nextTag? t).map fun (before, found) => (s ++ before, found) := by
  induction s with
  | nil =>
    rw [List.nil_append]
    cases markers.nextTag? t <;> rfl
  | cons c s ih =>
    rw [List.cons_append, nextTag?, Classical.not_not.1 h.1]
    simp only [ih h.2, Option.map_map]
    rfl

theorem nextTag?_of_avoids (h : Text.Avoids (fun u => markers.tag? u ≠ none) s t)
    (htag : markers.tag? t = some (tag, rest)) :
    markers.nextTag? (s ++ t) = some (s, tag, rest) := by
  rw [nextTag?_append_of_avoids h]
  cases t with
  | nil =>
    have := tag?_eq_some htag
    exact absurd (List.append_eq_nil_iff.1 this.symm).1 (source_ne_nil markers tag)
  | cons c t =>
    rw [nextTag?, htag]
    simp only [Option.map_some, List.append_nil]

theorem nextTag?_eq_none_iff :
    markers.nextTag? t = none ↔
      ∀ before inside after, t = before ++ (markers.opening ++ (inside ++ (markers.closing ++ after))) →
        inside = [] := by
  induction t with
  | nil =>
    simp only [nextTag?, true_iff]
    intro before inside after h
    have hopening := markers.opening_ne_nil
    simp_all
  | cons c t ih =>
    have hsplit : markers.nextTag? (c :: t) = none ↔
        markers.tag? (c :: t) = none ∧ markers.nextTag? t = none := by
      rw [nextTag?]
      split <;> simp_all
    rw [hsplit, tag?_eq_none_iff, ih]
    constructor
    · rintro ⟨⟨hhere, -⟩, hlater⟩ before inside after h
      cases before with
      | nil => exact Classical.byContradiction fun hinside => hhere ⟨inside, after, hinside, h⟩
      | cons d before =>
        rw [List.cons_append, List.cons.injEq] at h
        exact hlater before inside after h.2
    · intro h
      refine ⟨⟨?_, ?_⟩, ?_⟩
      · rintro ⟨inside, after, hinside, ht⟩
        exact hinside (h [] inside after ht)
      · rintro u hu ⟨inside, after, hinside, rfl⟩
        exact hinside (h [escapeMarker] inside after hu)
      · rintro before inside after rfl
        exact h (c :: before) inside after rfl

theorem nextTag?_of_not_infix (h : ¬ markers.opening <:+: t) : markers.nextTag? t = none := by
  rw [nextTag?_eq_none_iff]
  rintro before inside after rfl
  exact absurd ⟨before, inside ++ (markers.closing ++ after), by simp only [List.append_assoc]⟩ h

/-- The parts a tag is written with are the parts it is read with, if the expression has no
    blanks around it and the closing marker begins nowhere before its place. -/
theorem tagFromOpening?_of_parts {lead expression trail after : Text} (escaped : Bool)
    (hlead : ∀ c ∈ lead, isBlank c = true)
    (hhead : ∃ c ∈ expression.head?, isBlank c = false)
    (hlast : ∃ c ∈ expression.getLast?, isBlank c = false)
    (htrail : ∀ c ∈ trail, isBlank c = true)
    (havoids : Text.Avoids (markers.closing <+: ·) (expression ++ trail) (markers.closing ++ after))
    (hclosing : ∀ c ∈ (markers.closing ++ after).head?, isBlank c = false) :
    markers.tagFromOpening? escaped
        (markers.opening ++ (lead ++ (expression ++ (trail ++ (markers.closing ++ after))))) =
      some (⟨escaped, lead, expression, trail, (splitLineBreak after).1⟩, (splitLineBreak after).2) := by
  have hcontains : Text.contains markers.closing
      (lead ++ (expression ++ (trail ++ (markers.closing ++ after)))) = true :=
    Text.contains_iff.2 ⟨lead ++ expression ++ trail, after, by simp only [List.append_assoc]⟩
  simp only [tagFromOpening?, Text.stripPrefix?_append, Option.bind_some, tagAfterOpening?,
    hcontains, if_true, insideThen?_of_avoids hlead hhead hlast htrail havoids hclosing,
    Option.map_some]

theorem tag?_escapeMarker_cons (h : markers.tagFromOpening? true t = some (tag, rest)) :
    markers.tag? (escapeMarker :: t) = some (tag, rest) := by
  have hstrip : Text.stripPrefix? [escapeMarker] (escapeMarker :: t) = some t :=
    Text.stripPrefix?_append [escapeMarker] t
  rw [tag?, hstrip, Option.bind_some, h]

theorem tag?_of_head_ne (h : t.head? ≠ some escapeMarker) :
    markers.tag? t = markers.tagFromOpening? false t := by
  have hstrip : Text.stripPrefix? [escapeMarker] t = none := by
    rw [Text.stripPrefix?_eq_none_iff]
    rintro ⟨u, rfl⟩
    exact h rfl
  rw [tag?, hstrip, Option.bind_none]

theorem splitTags_of_none (h : markers.nextTag? t = none) : markers.splitTags t = ([], t) := by
  rw [splitTags]
  split
  · rfl
  · simp_all

theorem splitTags_of_some {before : Text} (h : markers.nextTag? t = some (before, tag, rest)) :
    markers.splitTags t =
      ((before, tag) :: (markers.splitTags rest).1, (markers.splitTags rest).2) := by
  rw [splitTags]
  split
  · simp_all
  case _ b g r h' =>
    rw [h] at h'
    cases h'
    rfl

end

end Template.Markers
