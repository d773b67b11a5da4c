import Template.Proofs.EchoPass
import Template.Proofs.LineEndingSpan
import Template.Proofs.LineEndingTag

/-! # Echo tags and line endings

Echo tags are found in the same places whichever way the line breaks of a text are written, and so are
the blanks around an expression, but for a tag that holds nothing but blanks: of its last blank the
expression is made, and of a line break at that place only the line feed.
-/

namespace Template

open Text

namespace Markers

section

variable {c : Char} {mark t : Text}

theorem isBlank_lineBreak : isBlank '\r' = true ∧ isBlank '\n' = true := by decide

theorem blanksThen?_cons (hblank : isBlank c = true) (hstrip : stripPrefix? mark (c :: t) = none) :
    blanksThen? mark (c :: t) = (blanksThen? mark t).map fun (blanks, after) => (c :: blanks, after) := by
  rw [blanksThen?, hblank, if_pos rfl, hstrip]
  cases blanksThen? mark t <;> rfl

theorem expressionThen?_cons_of_none (h : blanksThen? mark t = none) : expressionThen? mark (c :: t) =
    (expressionThen? mark t).map fun (expression, rest) => (c :: expression, rest) := by
  rw [expressionThen?, h]

theorem expressionThen?_cons_of_some {trail after : Text} (h : blanksThen? mark t = some (trail, after)) :
    expressionThen? mark (c :: t) = some ([c], trail, after) := by
  rw [expressionThen?, h]

theorem insideThen?_cons_of_some {lead : Text} {rest : Text × Text × Text} (hblank : isBlank c = true)
    (h : insideThen? mark t = some (lead, rest)) : insideThen? mark (c :: t) = some (c :: lead, rest) := by
  rw [insideThen?, hblank, if_pos rfl, h]

theorem insideThen?_cons_of_none (h : isBlank c = true → insideThen? mark t = none) :
    insideThen? mark (c :: t) = (expressionThen? mark (c :: t)).map fun rest => ([], rest) := by
  rw [insideThen?]
  cases hblank : isBlank c with
  | true => rw [if_pos rfl, h hblank]
  | false => rw [if_neg Bool.false_ne_true]

/-- Where no inside of a tag is found, no expression is. -/
theorem expressionThen?_eq_none_of_insideThen? (h : insideThen? mark t = none) : expressionThen? mark t = none := by
  cases t with
  | nil => rfl
  | cons c t =>
    have hinside : isBlank c = true → insideThen? mark t = none := by
      intro hblank
      cases hfound : insideThen? mark t with
      | none => rfl
      | some found =>
        rw [insideThen?_cons_of_some hblank hfound] at h
        cases h
    rw [insideThen?_cons_of_none hinside] at h
    exact Option.map_eq_none_iff.1 h

end

section

variable {c : Char} {mark t : Text} (hmark : Text.Unbroken mark) (hne : mark ≠ [])

include hmark hne

theorem blanksThen?_lineBreak (hc : c = '\r' ∨ c = '\n') (t : Text) :
    blanksThen? mark (c :: t) = (blanksThen? mark t).map fun (blanks, after) => (c :: blanks, after) := by
  refine blanksThen?_cons ?_ (stripPrefix?_of_lineBreak hmark hne hc t)
  rcases hc with rfl | rfl
  · exact isBlank_lineBreak.1
  · exact isBlank_lineBreak.2

theorem blanksThen?_crlf (t : Text) :
    blanksThen? mark (crlf t) = (blanksThen? mark t).map (Prod.map crlf crlf) := by
  have hstrip := stripPrefix?_crlf hmark
  induction t with
  | nil =>
    obtain ⟨m, mark, rfl⟩ := List.exists_cons_of_ne_nil hne
    rfl
  | cons c t ih =>
    by_cases hc : c = '\n'
    case pos =>
      subst hc
      rw [crlf_lineFeed, blanksThen?_lineBreak hmark hne (.inl rfl), blanksThen?_lineBreak hmark hne (.inr rfl),
        blanksThen?_lineBreak hmark hne (.inr rfl), ih]
      exact map_lineBreak_crlf _
    case neg =>
      have hhere := hstrip (c :: t)
      rw [crlf_cons hc] at hhere
      rw [crlf_cons hc, blanksThen?, blanksThen?, hhere, ih]
      cases isBlank c with
      | false => cases stripPrefix? mark (c :: t) <;> rfl
      | true =>
        rw [if_pos rfl, if_pos rfl]
        cases blanksThen? mark t with
        | none => cases stripPrefix? mark (c :: t) <;> rfl
        | some found => simp [crlf_cons hc]

/-- Where the expression cannot be empty, it reaches as far in either way. -/
theorem expressionThen?_crlf (h : blanksThen? mark t = none) :
    expressionThen? mark (crlf t) = (expressionThen? mark t).map (Prod.map crlf (Prod.map crlf crlf)) := by
  induction t with
  | nil => rfl
  | cons c t ih =>
    have hblanks := blanksThen?_crlf hmark hne t
    by_cases hc : c = '\n'
    case pos =>
      subst hc
      rw [blanksThen?_lineBreak hmark hne (.inr rfl), Option.map_eq_none_iff] at h
      rw [h, Option.map_none] at hblanks
      have hfeed : blanksThen? mark ('\n' :: crlf t) = none := by
        rw [blanksThen?_lineBreak hmark hne (.inr rfl), hblanks, Option.map_none]
      rw [crlf_lineFeed, expressionThen?_cons_of_none hfeed, expressionThen?_cons_of_none hblanks,
        expressionThen?_cons_of_none h, ih h]
      exact map_lineBreak_crlf _
    case neg =>
      rw [crlf_cons hc]
      cases hfound : blanksThen? mark t with
      | some found =>
        obtain ⟨trail, after⟩ := found
        rw [hfound] at hblanks
        rw [expressionThen?_cons_of_some hfound, expressionThen?_cons_of_some hblanks]
        simp [crlf_cons hc]
      | none =>
        rw [hfound] at hblanks
        rw [expressionThen?_cons_of_none hfound, expressionThen?_cons_of_none hblanks, ih hfound]
        exact map_cons_crlf hc _

theorem expressionThen?_cons_crlf (hc : c ≠ '\n') (t : Text) : expressionThen? mark (c :: crlf t) =
    (expressionThen? mark (c :: t)).map (Prod.map crlf (Prod.map crlf crlf)) := by
  have hblanks := blanksThen?_crlf hmark hne t
  cases hfound : blanksThen? mark t with
  | some found =>
    obtain ⟨trail, after⟩ := found
    rw [hfound] at hblanks
    rw [expressionThen?_cons_of_some hfound, expressionThen?_cons_of_some hblanks]
    simp [crlf_cons hc]
  | none =>
    rw [hfound] at hblanks
    rw [expressionThen?_cons_of_none hfound, expressionThen?_cons_of_none hblanks, expressionThen?_crlf hmark hne hfound]
    exact map_cons_crlf hc _

/-- The insides of a tag in a text and in the same text with the other line endings: blanks before the
    expression, the expression, blanks after it, and the text behind the tag. -/
structure CrlfInside (found other : Text × Text × Text × Text) : Prop where
  start : other.1 ++ other.2.1 = crlf (found.1 ++ found.2.1)
  expression : Respelled found.2.1 other.2.1
  rest : other.2.2 = Prod.map crlf crlf found.2.2

theorem insideThen?_crlf_of_none (hc : c ≠ '\n') (hreturn : '\r' ∉ c :: t)
    (h : isBlank c = true → insideThen? mark t = none) (h' : isBlank c = true → insideThen? mark (crlf t) = none) :
    Option.Rel CrlfInside (insideThen? mark (c :: t)) (insideThen? mark (c :: crlf t)) := by
  rw [insideThen?_cons_of_none h, insideThen?_cons_of_none h', expressionThen?_cons_crlf hmark hne hc]
  cases hfound : expressionThen? mark (c :: t) with
  | none => exact .none
  | some found =>
    have hexpression : '\r' ∉ found.1 := by
      rw [expressionThen?_eq_some hfound] at hreturn
      simp_all
    exact .some ⟨rfl, respelled_crlf hexpression, rfl⟩

/-- A line break with no inside of a tag behind it is the last of the blanks that the expression is made
    of, and only its line feed is the expression. -/
theorem insideThen?_lineFeed_of_none (h : insideThen? mark t = none) (h' : insideThen? mark (crlf t) = none) :
    Option.Rel CrlfInside (insideThen? mark ('\n' :: t)) (insideThen? mark ('\r' :: '\n' :: crlf t)) := by
  have hblanks := blanksThen?_crlf hmark hne t
  have hfeed : insideThen? mark ('\n' :: crlf t) = (expressionThen? mark ('\n' :: crlf t)).map fun rest => ([], rest) :=
    insideThen?_cons_of_none fun _ => h'
  rw [insideThen?_cons_of_none fun _ => h]
  cases hfound : blanksThen? mark t with
  | some found =>
    rw [hfound] at hblanks
    rw [expressionThen?_cons_of_some hblanks] at hfeed
    rw [expressionThen?_cons_of_some hfound, insideThen?_cons_of_some isBlank_lineBreak.1 hfeed]
    exact .some ⟨rfl, .cons (by decide) .nil, rfl⟩
  | none =>
    rw [hfound] at hblanks
    have hnone : insideThen? mark ('\n' :: crlf t) = none := by
      simp [hfeed, expressionThen?_cons_of_none hblanks, expressionThen?_eq_none_of_insideThen? h']
    have hreturn : blanksThen? mark ('\n' :: crlf t) = none := by
      simp [blanksThen?_lineBreak hmark hne (.inr rfl), hblanks]
    rw [insideThen?_cons_of_none fun _ => hnone, expressionThen?_cons_of_none hreturn,
      expressionThen?_eq_none_of_insideThen? hnone, expressionThen?_cons_of_none hfound,
      expressionThen?_eq_none_of_insideThen? h]
    exact .none

theorem insideThen?_crlf (h : '\r' ∉ t) : Option.Rel CrlfInside (insideThen? mark t) (insideThen? mark (crlf t)) := by
  induction t with
  | nil => exact .none
  | cons c t ih =>
    have hinside := ih fun hmem => h (List.mem_cons_of_mem _ hmem)
    generalize hfound : insideThen? mark t = found at hinside
    generalize hother : insideThen? mark (crlf t) = other at hinside
    by_cases hc : c = '\n'
    case pos =>
      subst hc
      rw [crlf_lineFeed]
      cases hinside with
      | none => exact insideThen?_lineFeed_of_none hmark hne hfound hother
      | some hsame =>
        rw [insideThen?_cons_of_some isBlank_lineBreak.2 hfound,
          insideThen?_cons_of_some isBlank_lineBreak.1 (insideThen?_cons_of_some isBlank_lineBreak.2 hother)]
        exact .some ⟨by simp [hsame.start], hsame.expression, hsame.rest⟩
    case neg =>
      rw [crlf_cons hc]
      cases hinside with
      | none => exact insideThen?_crlf_of_none hmark hne hc h (fun _ => hfound) (fun _ => hother)
      | some hsame =>
        cases hblank : isBlank c with
        | true =>
          rw [insideThen?_cons_of_some hblank hfound, insideThen?_cons_of_some hblank hother]
          exact .some ⟨by simp [hsame.start, crlf_cons hc], hsame.expression, hsame.rest⟩
        | false =>
          apply insideThen?_crlf_of_none hmark hne hc h
          · simp [hblank]
          · simp [hblank]

end

end Markers

namespace EchoTag

variable {markers : Markers} {tag other : EchoTag}

/-- The same tag with its line breaks written in the other way. -/
structure Crlf (tag other : EchoTag) : Prop where
  escaped : other.escaped = tag.escaped
  inside : other.inside = Text.crlf tag.inside
  expression : Respelled tag.expression other.expression
  lineBreak : other.lineBreak = Text.crlf tag.lineBreak

theorem Crlf.unescaped (hmarkers : markers.Unbroken) (h : tag.Crlf other) :
    other.unescaped markers = Text.crlf (tag.unescaped markers) := by
  simp only [EchoTag.unescaped, crlf_append, h.inside, h.lineBreak, crlf_of_not_mem hmarkers.opening.lineFeed,
    crlf_of_not_mem hmarkers.closing.lineFeed]

theorem Crlf.source (hmarkers : markers.Unbroken) (h : tag.Crlf other) :
    other.source markers = Text.crlf (tag.source markers) := by
  have hescape : Text.crlf (if tag.escaped then [escapeMarker] else []) = if tag.escaped then [escapeMarker] else [] := by
    split <;> rfl
  rw [EchoTag.source, EchoTag.source, crlf_append, h.unescaped hmarkers, h.escaped, hescape]

end EchoTag

namespace Markers

/-- A tag and the text after it, and the same with the line breaks written in the other way. -/
structure CrlfFound (found other : EchoTag × Text) : Prop where
  tag : found.1.Crlf other.1
  rest : other.2 = crlf found.2

/-- A tag between the text before it and the text after it, and the same with the line breaks written in
    the other way. -/
structure CrlfNext (found other : Text × EchoTag × Text) : Prop where
  before : other.1 = crlf found.1
  found : CrlfFound found.2 other.2

/-- A tag with the text before it, and the same with the line breaks written in the other way. -/
structure CrlfPart (markers : Markers) (part other : Text × EchoTag) : Prop where
  before : other.1 = crlf part.1
  tag : part.2.Crlf other.2
  carriageReturn : '\r' ∉ part.1 ++ part.2.source markers

section

variable {markers : Markers} {c : Char} {t : Text} (hmarkers : markers.Unbroken)

include hmarkers

theorem tagAfterOpening?_crlf (escaped : Bool) (h : '\r' ∉ t) :
    Option.Rel CrlfFound (markers.tagAfterOpening? escaped t) (markers.tagAfterOpening? escaped (crlf t)) := by
  have hinside := insideThen?_crlf hmarkers.closing hmarkers.closing_ne_nil h
  unfold tagAfterOpening?
  rw [contains_crlf hmarkers.closing hmarkers.closing_ne_nil]
  split
  case isFalse => exact .none
  case isTrue =>
    generalize hfound : insideThen? markers.closing t = found at hinside
    generalize insideThen? markers.closing (crlf t) = other at hinside
    cases hinside with
    | none => exact .none
    | @some found other hsame =>
      obtain ⟨lead, expression, trail, after⟩ := found
      obtain ⟨lead', expression', trail', after'⟩ := other
      obtain ⟨hstart, hexpression, hrest⟩ := hsame
      cases hrest
      have hafter : '\r' ∉ after := by
        rw [insideThen?_eq_some hfound] at h
        simp_all
      simp only [Option.map_some, splitLineBreak_crlf hafter]
      refine .some ⟨⟨rfl, ?_, hexpression, rfl⟩, rfl⟩
      simp only [EchoTag.inside]
      rw [crlf_append, ← hstart]

theorem tagFromOpening?_crlf (escaped : Bool) (h : '\r' ∉ t) :
    Option.Rel CrlfFound (markers.tagFromOpening? escaped t) (markers.tagFromOpening? escaped (crlf t)) := by
  unfold tagFromOpening?
  rw [stripPrefix?_crlf hmarkers.opening]
  cases hstrip : stripPrefix? markers.opening t with
  | none => exact .none
  | some u =>
    rw [stripPrefix?_eq_some hstrip, List.mem_append, not_or] at h
    exact tagAfterOpening?_crlf hmarkers escaped h.2

theorem tag?_crlf (h : '\r' ∉ t) : Option.Rel CrlfFound (markers.tag? t) (markers.tag? (crlf t)) := by
  have hplain := tagFromOpening?_crlf hmarkers false h
  unfold tag?
  rw [stripPrefix?_crlf (by decide)]
  cases hstrip : stripPrefix? [escapeMarker] t with
  | none => exact hplain
  | some u =>
    rw [stripPrefix?_eq_some hstrip, List.mem_append, not_or] at h
    have hescaped := tagFromOpening?_crlf hmarkers true h.2
    simp only [Option.map_some, Option.bind_some]
    generalize markers.tagFromOpening? true u = found at hescaped
    generalize markers.tagFromOpening? true (crlf u) = other at hescaped
    cases hescaped with
    | none => exact hplain
    | some hsame => exact .some hsame

theorem tag?_lineBreak (hc : c = '\r' ∨ c = '\n') (t : Text) : markers.tag? (c :: t) = none := by
  apply Classical.byContradiction
  intro hsome
  have hopening := stripPrefix?_eq_none_iff.1 (stripPrefix?_of_lineBreak hmarkers.opening markers.opening_ne_nil hc t)
  rcases opening_isPrefix_of_tag?_ne_none hsome with hprefix | hprefix
  · exact hopening hprefix
  · have hescape := (List.cons_prefix_cons.1 hprefix).1
    rcases hc with rfl | rfl <;> exact absurd hescape (by decide)

omit hmarkers in
theorem nextTag?_cons_of_none (h : markers.tag? (c :: t) = none) : markers.nextTag? (c :: t) =
    (markers.nextTag? t).map fun (before, found) => (c :: before, found) := by
  rw [nextTag?, h]

theorem nextTag?_crlf (h : '\r' ∉ t) : Option.Rel CrlfNext (markers.nextTag? t) (markers.nextTag? (crlf t)) := by
  induction t with
  | nil => exact .none
  | cons c t ih =>
    have hlater := ih fun hmem => h (List.mem_cons_of_mem _ hmem)
    by_cases hc : c = '\n'
    case pos =>
      subst hc
      rw [crlf_lineFeed, nextTag?_cons_of_none (tag?_lineBreak hmarkers (.inr rfl) _),
        nextTag?_cons_of_none (tag?_lineBreak hmarkers (.inl rfl) _),
        nextTag?_cons_of_none (tag?_lineBreak hmarkers (.inr rfl) _)]
      generalize markers.nextTag? t = found at hlater
      generalize markers.nextTag? (crlf t) = other at hlater
      cases hlater with
      | none => exact .none
      | some hsame => exact .some ⟨by simp [hsame.before], hsame.found⟩
    case neg =>
      have htag := tag?_crlf hmarkers h
      rw [crlf_cons hc] at htag ⊢
      generalize hfound : markers.tag? (c :: t) = found at htag
      generalize hother : markers.tag? (c :: crlf t) = other at htag
      cases htag with
      | some hsame =>
        rw [nextTag?, nextTag?, hfound, hother]
        exact .some ⟨rfl, hsame⟩
      | none =>
        rw [nextTag?_cons_of_none hfound, nextTag?_cons_of_none hother]
        generalize markers.nextTag? t = found at hlater
        generalize markers.nextTag? (crlf t) = other at hlater
        cases hlater with
        | none => exact .none
        | some hsame => exact .some ⟨by simp [hsame.before, crlf_cons hc], hsame.found⟩

/-- The tags of a text are the same with the other line endings, and so is the text around them. -/
theorem splitTags_crlf (h : '\r' ∉ t) :
    List.Forall₂ (CrlfPart markers) (markers.splitTags t).1 (markers.splitTags (crlf t)).1 ∧
      (markers.splitTags (crlf t)).2 = crlf (markers.splitTags t).2 ∧ '\r' ∉ (markers.splitTags t).2 := by
  fun_induction splitTags markers t with
  | case1 t hnone =>
    have hnext := nextTag?_crlf hmarkers h
    rw [hnone] at hnext
    generalize hother : markers.nextTag? (crlf t) = other at hnext
    cases hnext with
    | none =>
      rw [splitTags_of_none hother]
      exact ⟨.nil, rfl, h⟩
  | case2 t before tag rest hsome parts last hsplit ih =>
    have hnext := nextTag?_crlf hmarkers h
    rw [nextTag?_eq_some hsome, List.mem_append, not_or] at h
    have hparts := ih h.2
    rw [hsplit] at hparts
    rw [hsome] at hnext
    generalize hother : markers.nextTag? (crlf t) = other at hnext
    cases hnext with
    | @some found other hsame =>
      obtain ⟨before', tag', rest'⟩ := other
      rw [splitTags_of_some hother, show rest' = crlf rest from hsame.found.rest]
      exact ⟨.cons ⟨hsame.before, hsame.found.tag, h.1⟩ hparts.1, hparts.2⟩

end

end Markers

end Template
