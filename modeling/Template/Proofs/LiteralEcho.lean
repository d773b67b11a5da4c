import Template.Proofs.Comment
import Template.Proofs.Directive
import Template.Proofs.Place
import Template.Proofs.Standard

/-! # Literal echo tags

An echo tag behind the escape marker is literal text: the marker is dropped and nothing else.
Earlier steps must have left the tag whole for that, and the regular family looks at a literal
tag of the escaped family once more, so not every text can stand inside.
-/

namespace Template

open Markers (standardComments)

/-- The text of an echo tag around a body, with a space on both sides. -/
def literalText (family : EchoFamily) (body : Text) : Text :=
  (EchoPasses.standard.markers family).opening ++
    ' ' :: (body ++ ' ' :: (EchoPasses.standard.markers family).closing)

/-- A directive tag is spelled in the text: an introducer before a word character and not after
    one. -/
def SpellsDirective (t : Text) : Prop :=
  ∃ before c after, t = before ++ '<' :: '@' :: c :: after ∧ isWord c = true ∧
    before.getLast?.any isWord = false

theorem spellsDirective_iff {t : Text} : SpellsDirective t ↔ DirectiveTag.next? none t ≠ none := by
  rw [ne_eq, DirectiveTag.next?_eq_none_iff]
  constructor
  · rintro ⟨before, c, after, ht, hc, hbefore⟩ hnone
    have hword := hnone before c after ht hc
    rw [Option.or_none, hbefore] at hword
    cases hword
  · intro hsome
    apply Classical.byContradiction
    intro hspells
    refine hsome fun before c after ht hc => ?_
    rw [Option.or_none]
    exact Bool.of_not_eq_false fun hbefore => hspells ⟨before, c, after, ht, hc, hbefore⟩

/-- A body that every step leaves alone inside a literal tag of the family. -/
structure StaysLiteral (family : EchoFamily) (body : Text) : Prop where
  /-- Something is left when blanks are dropped. -/
  nonblank : ∃ c ∈ body, isBlank c = false
  /-- The tag ends at its own closing marker. -/
  closing : ¬ (EchoPasses.standard.markers family).closing <:+: body
  native : ¬ ['<', '?'] <:+: body
  comment : ¬ standardComments.opening <:+: body
  directive : ¬ SpellsDirective body
  /-- No whole raw tag is spelled, since these are rewritten first. -/
  raw : family ≠ .raw → ∀ before inside after,
    body = before ++ (EchoPasses.standard.raw.opening ++
      (inside ++ (EchoPasses.standard.raw.closing ++ after))) → inside = []
  /-- After the end that the regular family sees no marker is spelled that it or the check for
      unterminated tags would stop at. -/
  regular : family = .escaped → ∀ before after,
    body = before ++ EchoPasses.standard.regular.closing ++ after →
      ¬ EchoPasses.standard.regular.opening <:+: after ∧ EchoPasses.standard.raw.Closes after

namespace StaysLiteral

variable {family : EchoFamily} {body : Text}

/-- A mark without blanks that neither the body nor the markers of the tag hold. -/
theorem not_infix_source {mark : Text} (hspace : ' ' ∉ mark) (hbody : ¬ mark <:+: body)
    (hopening : ¬ mark <:+: escapeMarker :: (EchoPasses.standard.markers family).opening)
    (hclosing : ¬ mark <:+: (EchoPasses.standard.markers family).closing) :
    ¬ mark <:+: escapeMarker :: literalText family body :=
  Text.not_infix_append_cons hspace hopening (Text.not_infix_append_cons hspace hbody hclosing)

theorem nextCode?_eq_none (h : StaysLiteral family body) :
    nextCode? (escapeMarker :: literalText family body) = none := by
  apply nextCode?_eq_none_of_not_infix
  apply not_infix_source (by decide) h.native <;> cases family <;> decide

theorem stripComments_eq (h : StaysLiteral family body) (offset : Nat) :
    standardComments.stripComments offset (escapeMarker :: literalText family body) =
      .ok (escapeMarker :: literalText family body) := by
  apply Markers.stripComments_of_not_infix
  apply not_infix_source (by decide) h.comment <;> cases family <;> decide

theorem next?_eq_none (h : StaysLiteral family body) :
    DirectiveTag.next? none (escapeMarker :: literalText family body) = none := by
  have havoids : Text.Avoids (fun u => DirectiveTag.tag? none u ≠ none)
      (escapeMarker :: (EchoPasses.standard.markers family).opening ++ [' '])
      (body ++ ' ' :: (EchoPasses.standard.markers family).closing) := by
    refine Text.Avoids.mono (p := fun u => (∃ v, u = '<' :: '@' :: v) ∨ ∃ v, u = '@' :: '<' :: '@' :: v) ?_
      fun u hu => DirectiveTag.exists_of_tag?_ne_none hu
    cases family <;> simp [EchoPasses.standard, EchoPasses.markers, escapeMarker]
  have hbody : DirectiveTag.next? (some ' ')
      (body ++ ' ' :: (EchoPasses.standard.markers family).closing) = none := by
    rw [DirectiveTag.next?_eq_none_iff]
    intro before c after hspells hc
    have hspace : ' ' ∉ ['<', '@', c] := by
      simp only [List.mem_cons, List.not_mem_nil, or_false]
      rintro (hlt | hat | rfl)
      · cases hlt
      · cases hat
      · revert hc
        decide +kernel
    have hclosing : ¬ ['<', '@', c] <:+: (EchoPasses.standard.markers family).closing := by
      intro hoccurs
      have hmem : '<' ∈ (EchoPasses.standard.markers family).closing :=
        hoccurs.subset List.mem_cons_self
      revert hmem
      cases family <;> decide
    have hcut : body ++ ' ' :: (EchoPasses.standard.markers family).closing =
        before ++ ['<', '@', c] ++ after := by simpa using hspells
    obtain ⟨rest, hrest, -⟩ := Text.exists_of_append_cons_eq hspace hclosing hcut
    have hword : before.getLast?.any isWord = true := by
      refine Bool.of_not_eq_false fun hword => ?_
      exact h.directive ⟨before, c, rest, by rw [hrest]; simp, hc, hword⟩
    cases hlast : before.getLast? with
    | none =>
      rw [hlast] at hword
      cases hword
    | some d =>
      rw [hlast] at hword
      exact hword
  have hnext := DirectiveTag.next?_append_of_avoids none havoids
  have hlast : (escapeMarker :: (EchoPasses.standard.markers family).opening ++ [' ']).getLast?.or none =
      some ' ' := by
    rw [List.getLast?_append]
    rfl
  rw [hlast, hbody, Option.map_none] at hnext
  rw [literalText, ← hnext]
  simp only [List.cons_append, List.append_assoc, List.nil_append]

/-- The tag is read whole by its own family. -/
theorem nextTag?_eq (h : StaysLiteral family body) :
    ∃ tag, tag.escaped = true ∧ tag.unescaped (EchoPasses.standard.markers family) =
        literalText family body ∧
      (EchoPasses.standard.markers family).nextTag? (escapeMarker :: literalText family body) =
        some ([], tag, []) := by
  have hmark : ' ' ∉ (EchoPasses.standard.markers family).closing := by cases family <;> decide
  have hblank : ∀ c ∈ (EchoPasses.standard.markers family).closing.head?, isBlank c = false := by
    intro c hc
    cases family <;> cases hc <;> decide
  have hoccurs := h.closing
  obtain ⟨lead, expression, trail, hbody, hlead, hhead, hlast, htrail⟩ :=
    Markers.exists_blanks_around h.nonblank
  rw [hbody] at hoccurs
  generalize hmarkers : EchoPasses.standard.markers family = markers at hmark hblank hoccurs ⊢
  have havoids : Text.Avoids (markers.closing <+: ·) (expression ++ (trail ++ [' ']))
      (markers.closing ++ []) := by
    have hinside := Text.avoids_of_not_infix (t := markers.closing) hoccurs hmark
    rw [Text.avoids_append] at hinside
    rw [← List.append_assoc, Text.avoids_append, List.append_nil]
    refine ⟨hinside.2, fun hbegins => ?_, trivial⟩
    cases hclosing : markers.closing with
    | nil => exact hoccurs (hclosing ▸ List.nil_infix)
    | cons c closing =>
      rw [hclosing, List.cons_prefix_cons] at hbegins
      exact hmark (hclosing ▸ hbegins.1 ▸ List.mem_cons_self)
  have hlead' : ∀ c ∈ ' ' :: lead, isBlank c = true := List.forall_mem_cons.2 ⟨by decide, hlead⟩
  have htrail' : ∀ c ∈ trail ++ [' '], isBlank c = true := 
    List.forall_mem_append.2 ⟨htrail, List.forall_mem_singleton.2 (by decide)⟩
  have hread := Markers.tagFromOpening?_of_parts true hlead' hhead hlast htrail' havoids
    (by rwa [List.append_nil])
  have htext : markers.opening ++ (' ' :: lead ++ (expression ++ (trail ++ [' '] ++ (markers.closing ++ [])))) =
      literalText family body := by
    simp [literalText, hmarkers, hbody]
  rw [htext] at hread
  refine ⟨⟨true, ' ' :: lead, expression, trail ++ [' '], []⟩, rfl, ?_, ?_⟩
  · rw [← htext]
    simp [EchoTag.unescaped, EchoTag.inside]
  · rw [Markers.nextTag?, Markers.tag?_escapeMarker_cons hread]
    rfl

theorem raw_nextTag?_eq_none (h : StaysLiteral family body) (hfamily : family ≠ .raw) :
    (EchoPasses.standard.markers .raw).nextTag? (escapeMarker :: literalText family body) = none := by
  change EchoPasses.standard.raw.nextTag? _ = none
  have havoids : Text.Avoids (fun u => EchoPasses.standard.raw.tag? u ≠ none)
      (escapeMarker :: (EchoPasses.standard.markers family).opening ++ [' '])
      (body ++ ' ' :: (EchoPasses.standard.markers family).closing) := by
    refine Text.Avoids.mono ?_ fun u hu => Markers.opening_isPrefix_of_tag?_ne_none hu
    cases family with
    | raw => exact absurd rfl hfamily
    | escaped | regular => simp [EchoPasses.standard, EchoPasses.markers, escapeMarker]
  have hbody : EchoPasses.standard.raw.nextTag?
      (body ++ ' ' :: (EchoPasses.standard.markers family).closing) = none := by
    rw [Markers.nextTag?_eq_none_iff]
    intro before inside after htext
    have hclosing : ¬ EchoPasses.standard.raw.closing <:+: (EchoPasses.standard.markers family).closing := by
      revert hfamily
      cases family <;> decide
    have hcut : body ++ ' ' :: (EchoPasses.standard.markers family).closing =
        before ++ (EchoPasses.standard.raw.opening ++ inside) ++
          EchoPasses.standard.raw.closing ++ after := by
      simpa only [List.append_assoc] using htext
    obtain ⟨rest, hrest, -⟩ := Text.exists_of_append_cons_eq (by decide) hclosing hcut
    exact h.raw hfamily before inside rest (by simpa only [List.append_assoc] using hrest)
  have hnext := Markers.nextTag?_append_of_avoids havoids
  rw [hbody, Option.map_none] at hnext
  rw [literalText, ← hnext]
  simp only [List.cons_append, List.append_assoc, List.nil_append]

theorem escaped_nextTag?_eq_none (h : StaysLiteral .regular body) :
    (EchoPasses.standard.markers .escaped).nextTag?
      (escapeMarker :: literalText .regular body) = none := by
  change EchoPasses.standard.escaped.nextTag? _ = none
  rw [Markers.nextTag?_eq_none_iff]
  intro before inside after htext
  have hbody : ¬ EchoPasses.standard.escaped.closing <:+: body := fun hoccurs =>
    h.closing (List.IsInfix.trans (by decide) hoccurs)
  have hsource : ¬ EchoPasses.standard.escaped.closing <:+: escapeMarker :: literalText .regular body :=
    not_infix_source (by decide) hbody (by decide) (by decide)
  exact absurd ⟨before ++ (EchoPasses.standard.escaped.opening ++ inside), after,
    by simp only [htext, List.append_assoc]⟩ hsource

/-- What follows a regular closing marker in the body and its end holds no regular opening marker
    and no unclosed raw one. -/
theorem closes_after (h : StaysLiteral .escaped body) {before after : Text}
    (htext : body ++ ' ' :: EchoPasses.standard.escaped.closing =
      before ++ EchoPasses.standard.regular.closing ++ after) :
    ¬ EchoPasses.standard.regular.opening <:+: after ∧ EchoPasses.standard.raw.Closes after := by
  rcases List.append_eq_append_iff.1 htext with ⟨more, -, hafter⟩ | ⟨more, hbody, rfl⟩
  · -- The closing marker reaches into the end of the tag.
    have hend : ∀ mark, ¬ mark <:+: ' ' :: EchoPasses.standard.escaped.closing → ¬ mark <:+: after := by
      intro mark hmark hoccurs
      rw [hafter] at hmark
      exact hmark (hoccurs.trans (List.suffix_append more after).isInfix)
    exact ⟨hend _ (by decide), Markers.closes_of_not_infix (hend _ (by decide))⟩
  · obtain ⟨hregular, hraw⟩ := h.regular rfl before more hbody
    refine ⟨Text.not_infix_append_cons (by decide) hregular (by decide), ?_⟩
    intro front back hmore
    obtain ⟨rest, hrest, rfl⟩ := Text.exists_of_append_cons_eq (c := ' ') (by decide) (by decide) hmore
    exact (hraw front rest hrest).trans (List.prefix_append rest _).isInfix

/-- The regular family takes a literal tag of the escaped family up to the first place of its own
    closing marker, and nothing is left that it or the check for unterminated tags stops at. -/
theorem regular_nextTag?_eq (h : StaysLiteral .escaped body) :
    ∃ tag rest, tag.escaped = true ∧
      tag.unescaped (EchoPasses.standard.markers .regular) ++ rest = literalText .escaped body ∧
      ¬ EchoPasses.standard.regular.opening <:+: rest ∧ EchoPasses.standard.raw.Closes rest ∧
      (EchoPasses.standard.markers .regular).nextTag? (escapeMarker :: literalText .escaped body) =
        some ([], tag, rest) := by
  change ∃ tag rest, _ ∧ _ ∧ _ ∧ _ ∧ EchoPasses.standard.regular.nextTag? _ = _
  have hcontains : EchoPasses.standard.regular.closing <:+:
      body ++ ' ' :: EchoPasses.standard.escaped.closing :=
    ⟨body ++ [' '], ['\x7d'], by simp [EchoPasses.standard]⟩
  cases hcut : Text.cut? EchoPasses.standard.regular.closing
      (body ++ ' ' :: EchoPasses.standard.escaped.closing) with
  | none => exact absurd hcontains (Text.cut?_eq_none_iff.1 hcut)
  | some found =>
    obtain ⟨before, after⟩ := found
    have hbody := Text.cut?_eq_some hcut
    obtain ⟨front, trail, hinside, hlast, htrail⟩ :=
      Markers.exists_blanks_after (t := '\x7b' :: ' ' :: before) ⟨_, List.mem_cons_self, by decide⟩
    have hhead : ∃ c ∈ front.head?, isBlank c = false := by
      cases front with
      | nil =>
        obtain ⟨c, hc, _⟩ := hlast
        cases hc
      | cons c front =>
        rw [List.cons_append, List.cons.injEq] at hinside
        exact ⟨c, rfl, hinside.1 ▸ by decide⟩
    have havoids : Text.Avoids (EchoPasses.standard.regular.closing <+: ·) (front ++ trail)
        (EchoPasses.standard.regular.closing ++ after) := by
      rw [← hinside]
      refine ⟨?_, ?_, Text.avoids_of_cut?_eq_some hcut⟩ <;>
        simp [EchoPasses.standard, List.cons_prefix_cons]
    have hlead : ∀ c ∈ ([] : Text), isBlank c = true := by simp
    have hread := Markers.tagFromOpening?_of_parts true hlead hhead hlast htrail havoids
      (fun c hc => by cases hc; decide)
    have htext : EchoPasses.standard.regular.opening ++ ([] ++ (front ++ (trail ++
        (EchoPasses.standard.regular.closing ++ after)))) = literalText .escaped body := by
      rw [List.nil_append, ← List.append_assoc front, ← hinside]
      change _ ++ ('\x7b' :: ' ' :: (before ++ (EchoPasses.standard.regular.closing ++ after))) = _
      rw [← List.append_assoc before, ← hbody]
      rfl
    rw [htext] at hread
    obtain ⟨hregular, hraw⟩ := h.closes_after hbody
    rw [← splitLineBreak_append after] at hregular hraw
    refine ⟨⟨true, [], front, trail, (splitLineBreak after).1⟩, (splitLineBreak after).2, rfl,
      ?_, ?_, ?_, ?_⟩
    · rw [← htext]
      conv => rhs; rw [← splitLineBreak_append after]
      simp only [EchoTag.unescaped, EchoTag.inside, List.append_assoc, List.nil_append]
      rfl
    · exact fun hoccurs => hregular (hoccurs.trans (List.suffix_append _ _).isInfix)
    · intro front back hrest
      exact hraw ((splitLineBreak after).1 ++ front) back (by rw [hrest]; simp only [List.append_assoc])
    · rw [Markers.nextTag?, Markers.tag?_escapeMarker_cons hread]

/-- The passes make output of the whole tag, but for a rest of it without unclosed markers. -/
theorem rewrite_eq (h : StaysLiteral family body) (offset : Nat) :
    ∃ shown rest next, shown ++ rest = literalText family body ∧
      (∀ family, (EchoPasses.standard.markers family).Closes rest) ∧
      EchoPasses.standard.rewrite
          (Piece.ofMarkup (escapeMarker :: literalText family body) offset) =
        .output shown :: Piece.ofMarkup rest next := by
  have hnil : ∀ family, (EchoPasses.standard.markers family).Closes [] := by
    intro family
    apply Markers.closes_of_not_infix
    cases family <;> decide
  obtain ⟨tag, hescaped, htag, hnext⟩ := h.nextTag?_eq
  obtain ⟨start, next, hpass⟩ := EchoPasses.pass_ofMarkup_of_some offset hnext
  unfold EchoPasses.rewrite
  cases family with
  | raw =>
    refine ⟨_, [], 0, (List.append_nil _).trans htag, hnil, ?_⟩
    rw [hpass]
    simp [EchoPasses.rewriteTag, hescaped, Piece.ofMarkup]
  | regular =>
    refine ⟨_, [], 0, (List.append_nil _).trans htag, hnil, ?_⟩
    rw [EchoPasses.pass_ofMarkup_of_none _ (h.raw_nextTag?_eq_none (by decide)),
      EchoPasses.pass_ofMarkup_of_none _ h.escaped_nextTag?_eq_none, hpass]
    simp [EchoPasses.rewriteTag, hescaped, Piece.ofMarkup]
  | escaped =>
    obtain ⟨regular, rest, hregular, hshown, hopening, hraw, hreread⟩ := h.regular_nextTag?_eq
    have hrest : ∀ family, (EchoPasses.standard.markers family).Closes rest := by
      intro family
      cases family with
      | raw => exact hraw
      | regular => exact Markers.closes_of_not_infix hopening
      | escaped =>
        apply Markers.closes_of_not_infix
        exact fun hoccurs => hopening (List.IsInfix.trans (by decide) hoccurs)
    have hwhole : EchoPasses.standard.pass .escaped
        (Piece.ofMarkup (escapeMarker :: literalText .escaped body) offset) =
          Piece.ofMarkup (escapeMarker :: literalText .escaped body) start := by
      rw [hpass, ← htag]
      simp only [EchoPasses.rewriteTag, hescaped, EchoTag.source]
      rfl
    obtain ⟨_, next, hpass⟩ := EchoPasses.pass_ofMarkup_of_some start hreread
    have hnone : (EchoPasses.standard.markers .regular).nextTag? rest = none :=
      Markers.nextTag?_of_not_infix hopening
    refine ⟨_, rest, next, hshown, hrest, ?_⟩
    rw [EchoPasses.pass_ofMarkup_of_none _ (h.raw_nextTag?_eq_none (by decide)), hwhole, hpass,
      EchoPasses.pass_ofMarkup_of_none _ hnone]
    simp only [EchoPasses.rewriteTag, hregular]
    rfl

theorem transpilePieces_eq (h : StaysLiteral family body) (offset : Nat) :
    EchoPasses.standard.transpilePieces
        (Piece.ofMarkup (escapeMarker :: literalText family body) offset) =
      .ok (literalText family body) := by
  obtain ⟨shown, rest, next, htext, hrest, hrewrite⟩ := h.rewrite_eq offset
  rw [EchoPasses.transpilePieces_of_closes, hrewrite]
  · simp [Piece.text, htext]
  · rw [hrewrite]
    intro m hm
    rcases List.mem_cons.1 (Piece.mem_markups.1 hm) with hcase | hmem
    · cases hcase
    · cases Piece.eq_of_mem_ofMarkup hmem
      exact hrest

end StaysLiteral

/-- An echo tag behind the escape marker is literal text, if its body spells nothing that an
    earlier step or a second look takes for something else. -/
theorem Transpiler.render_literal {directives : Registry} {family : EchoFamily} {body : Text}
    (h : StaysLiteral family body) :
    (standard directives).render (escapeMarker :: literalText family body) =
      .ok (literalText family body) := by
  have hfooter : Context.start.footer = [] := rfl
  refine renderWith_of_ok ?_ hfooter
  have hspans : Span.ofText (escapeMarker :: literalText family body) =
      [⟨.markup, escapeMarker :: literalText family body, 0⟩] := by
    rw [Span.ofText, Span.ofTextAt_of_none h.nextCode?_eq_none]
    rfl
  have hmarkup : ∀ answers, (standard directives).renderMarkup answers
      (escapeMarker :: literalText family body) .start = (.ok (literalText family body), .start) := by
    intro answers
    have hstrip : (standard directives).comments.stripComments Context.start.offset
        (escapeMarker :: literalText family body) = .ok (escapeMarker :: literalText family body) :=
      h.stripComments_eq _
    rw [renderMarkup_apply rfl, hstrip]
    dsimp only
    rw [DirectiveTag.split, DirectiveTag.splitAfter_of_none h.next?_eq_none]
    change (EchoPasses.standard.transpilePieces _, _) = _
    rw [h.transpilePieces_eq]
  rw [hspans, renderSpans_markup]
  refine (Run.bind_apply_ok (hmarkup _)).trans ?_
  change (Except.ok (literalText family body ++ []), Context.start) = _
  rw [List.append_nil]

/-- A body with an opening marker and an introducer that start no tag. -/
def openingInside : Text := "x \x7b\x7b y !!\x7d <@ z".toList

theorem Transpiler.render_literal_openingInside :
    StaysLiteral .escaped openingInside ∧
      (standard .builtins).render (escapeMarker :: literalText .escaped openingInside) =
        .ok (literalText .escaped openingInside) := by
  have hdirective : ¬ SpellsDirective openingInside := by
    rw [spellsDirective_iff]
    decide +kernel
  have hraw : EchoPasses.standard.raw.nextTag? openingInside = none := by decide +kernel
  have hclosing : ¬ EchoPasses.standard.regular.closing <:+: openingInside := by decide +kernel
  have hbody : StaysLiteral .escaped openingInside := {
    nonblank := ⟨'x', by decide, by decide⟩
    closing := by decide +kernel
    native := by decide +kernel
    comment := by decide +kernel
    directive := hdirective
    raw := fun _ => Markers.nextTag?_eq_none_iff.1 hraw
    regular := fun _ before after h => absurd ⟨before, after, h.symm⟩ hclosing }
  exact ⟨hbody, Transpiler.render_literal hbody⟩

def commentInside : Text := "a \x7b\x7b-- b --\x7d\x7d c".toList

/-- A comment inside a literal tag is dropped like any other, before echo tags are looked at. -/
theorem Transpiler.render_literal_drops_comment :
    (∃ c ∈ commentInside, isBlank c = false) ∧
      ¬ (EchoPasses.standard.markers .raw).closing <:+: commentInside ∧
      ¬ ['<', '?'] <:+: commentInside ∧
      (∀ c ∈ commentInside.head?.toList ++ commentInside.getLast?.toList,
        c ∉ ['\x7b', '\x7d', '-', '!']) ∧
      (standard .builtins).render (escapeMarker :: literalText .raw commentInside) ≠
        .ok (literalText .raw commentInside) := by
  have hrender : (standard .builtins).render (escapeMarker :: literalText .raw commentInside) =
      .ok (literalText .raw "a  c".toList) := by decide +kernel
  have hends : commentInside.head?.toList ++ commentInside.getLast?.toList = ['a', 'c'] := by decide
  refine ⟨⟨'a', by decide, by decide⟩, by decide +kernel, by decide +kernel, by rw [hends]; simp, ?_⟩
  rw [hrender]
  intro h
  have hne : literalText .raw "a  c".toList ≠ literalText .raw commentInside := by decide
  exact hne (Except.ok.inj h)

end Template
