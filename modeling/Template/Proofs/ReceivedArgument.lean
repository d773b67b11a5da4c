import Template.Proofs.DirectiveParse
import Template.Proofs.DirectiveScan
import Template.Proofs.MatchingParen
import Template.Proofs.Run
import Template.Proofs.Standard

/-! # The arguments that directives receive

The argument of a directive tag is a group, so a directive is carried out without an argument or with
a balanced text in parentheses. What it would do with any other argument makes no difference to a
template.
-/

namespace Template

namespace Text

/-- The text is what is left without its parentheses, in parentheses, and that is balanced. -/
def IsParenthesized (argument : Text) : Prop :=
  argument = '(' :: (stripParentheses argument ++ [')']) ∧ Bytes.Balanced (utf8 (stripParentheses argument))

theorem stripParentheses_parenthesized (inside : Text) : stripParentheses ('(' :: (inside ++ [')'])) = inside := by
  simp [stripParentheses, stripSuffix?, stripPrefix?]

theorem isParenthesized_of_isGroup {argument : Text} (hgroup : Bytes.IsGroup (utf8 argument))
    (hlast : argument.getLast? = some ')') : IsParenthesized argument := by
  obtain ⟨inside, hinside, hbytes⟩ := hgroup
  have hhead : argument.head? = some '(' := (head?_utf8_eq_iff (by decide)).1 (by rw [hbytes]; rfl)
  obtain ⟨rest, rfl⟩ := List.head?_eq_some_iff.1 hhead
  have hrest : utf8 rest = inside ++ [Bytes.ascii ')'] := (List.cons.inj hbytes).2
  cases rest with
  | nil => simp at hrest
  | cons c rest =>
    rw [List.getLast?_cons_cons] at hlast
    obtain ⟨inner, hinner⟩ := List.getLast?_eq_some_iff.1 hlast
    have hbalanced : utf8 inner = inside := by
      rw [hinner, utf8_append] at hrest
      exact List.append_cancel_right hrest
    rw [hinner]
    unfold IsParenthesized
    rw [stripParentheses_parenthesized, hbalanced]
    exact ⟨rfl, hinside⟩

end Text

namespace DirectiveTag

open Text (IsParenthesized)

theorem WritesArgument.isParenthesized {t rest group : Text} (h : WritesArgument t (.given group) rest) :
    IsParenthesized group := by
  have hlast := h.closes
  cases h with
  | given hgroup hcloses =>
    obtain ⟨-, -, hslice⟩ := Text.matchingParen?_eq_some_iff.1 hcloses
    have hpos := Text.byteLength_pos hgroup
    have hlength : Text.byteLength group - 1 + 1 - 0 = (Text.utf8 group).length := by
      rw [Text.length_utf8]
      omega
    rw [hlength, List.drop_zero, Text.utf8_append, List.take_left] at hslice
    exact Text.isParenthesized_of_isGroup hslice hlast

/-- Every argument that stands in a text is in parentheses with a balanced inside. -/
theorem isParenthesized_of_mem_split {t before : Text} {tag : DirectiveTag} (h : (before, tag) ∈ (split t).1) :
    ∀ argument ∈ tag.argument.text?, IsParenthesized argument := by
  obtain ⟨front, u, rest, -, hstands⟩ := (parses_splitAfter none t).exists_standsAt h
  obtain @⟨escaped, name, spacing, after, _, argument, -, -, -, -, -, -, hargument⟩ := hstands
  cases argument with
  | given group =>
    rintro argument ⟨⟩
    exact hargument.isParenthesized
  | absent | unclosed => simp [DirectiveArgument.text?]

end DirectiveTag

open Text (IsParenthesized)

/-- The registries know the same directives, and these do the same without an argument and with every
    one in parentheses. -/
structure Registry.AgreesInside (registry other : Registry) : Prop where
  names : registry.names = other.names
  find? : ∀ name, Option.Rel (fun handler handler' : Handler =>
    ∀ argument : Option Text, (∀ text ∈ argument, IsParenthesized text) → handler argument = handler' argument)
    (registry.find? name) (other.find? name)

namespace Registry

variable {registry other : Registry} {answers : Answers}

theorem AgreesInside.handler? (h : registry.AgreesInside other) (tag : DirectiveTag) :
    (registry.handler? tag = none ∧ other.handler? tag = none) ∨
      ∃ handler handler', registry.handler? tag = some handler ∧ other.handler? tag = some handler' ∧
        ∀ argument : Option Text, (∀ text ∈ argument, IsParenthesized text) → handler argument = handler' argument := by
  have hname := h.find? tag.name
  unfold Registry.handler?
  split
  case isTrue => exact .inl ⟨rfl, rfl⟩
  case isFalse =>
    generalize registry.find? tag.name = found at hname ⊢
    generalize other.find? tag.name = found' at hname ⊢
    cases hname with
    | none => exact .inl ⟨rfl, rfl⟩
    | some hagree => exact .inr ⟨_, _, rfl, rfl, hagree⟩

theorem AgreesInside.carryOutTag (h : registry.AgreesInside other) (answers : Answers) (start : Nat)
    {tag : DirectiveTag} (htag : ∀ argument ∈ tag.argument.text?, IsParenthesized argument) :
    registry.carryOutTag answers start tag = other.carryOutTag answers start tag := by
  rcases h.handler? tag with ⟨hnone, hnone'⟩ | ⟨handler, handler', hsome, hsome', hagree⟩
  · rw [carryOutTag_of_none hnone, carryOutTag_of_none hnone']
  · by_cases hargument : tag.argument = .unclosed
    case pos => rw [carryOutTag_of_unclosed hsome hargument, carryOutTag_of_unclosed hsome' hargument]
    case neg =>
      rw [carryOutTag_called hsome hargument, carryOutTag_called hsome' hargument, hagree _ htag, h.names]

theorem AgreesInside.carryOut (h : registry.AgreesInside other) (answers : Answers) (offset : Nat)
    {parts : List (Text × DirectiveTag)} (last : Text)
    (hparts : ∀ part ∈ parts, ∀ argument ∈ part.2.argument.text?, IsParenthesized argument) :
    registry.carryOut answers offset parts last = other.carryOut answers offset parts last := by
  induction parts generalizing offset with
  | nil => rfl
  | cons part parts ih =>
    rw [List.forall_mem_cons] at hparts
    simp only [Registry.carryOut, h.carryOutTag answers _ hparts.1, ih _ hparts.2]

end Registry

namespace Transpiler

/-- The transpiler with other directives. -/
def withDirectives (transpiler : Transpiler) (directives : Registry) : Transpiler := { transpiler with directives }

section

variable {transpiler : Transpiler} {other : Registry}

theorem scan_agreesInside (h : transpiler.directives.AgreesInside other) (answers : Answers) (text : Text) :
    (transpiler.withDirectives other).scan answers text = transpiler.scan answers text := by
  have hcarry : ∀ offset, transpiler.directives.carryOut answers offset (DirectiveTag.split text).1
      (DirectiveTag.split text).2 = other.carryOut answers offset (DirectiveTag.split text).1
        (DirectiveTag.split text).2 := fun offset =>
    h.carryOut answers offset _ fun part hpart => DirectiveTag.isParenthesized_of_mem_split hpart
  unfold scan
  simp only [withDirectives, hcarry]

theorem renderMarkup_agreesInside (h : transpiler.directives.AgreesInside other) (answers : Answers) (text : Text) :
    (transpiler.withDirectives other).renderMarkup answers text = transpiler.renderMarkup answers text := by
  have hhooks : (transpiler.withDirectives other).applyHooks answers = transpiler.applyHooks answers := by
    funext kept
    simp only [applyHooks, withDirectives, h.names]
  unfold renderMarkup
  rw [hhooks]
  simp only [scan_agreesInside h]
  rfl

theorem renderSpans_agreesInside (h : transpiler.directives.AgreesInside other) (answers : Answers)
    (spans : List Span) :
    (transpiler.withDirectives other).renderSpans answers spans = transpiler.renderSpans answers spans := by
  induction spans with
  | nil => rfl
  | cons span spans ih => simp only [renderSpans, renderMarkup_agreesInside h, ih]

theorem renderWith_agreesInside (h : transpiler.directives.AgreesInside other) (answers : Answers) (source : Text) :
    (transpiler.withDirectives other).renderWith answers source = transpiler.renderWith answers source := by
  simp only [renderWith, renderSpans_agreesInside h]

/-- What a directive asks of the run is answered alike, however deeply requests nest. -/
theorem answersAt_agreesInside (h : transpiler.directives.AgreesInside other) (depth : Nat) :
    (transpiler.withDirectives other).answersAt depth = transpiler.answersAt depth := by
  induction depth with
  | zero => rfl
  | succ depth ih =>
    simp only [answersAt, ih, scan_agreesInside h, renderWith_agreesInside h]
    rfl

theorem render_agreesInside (h : transpiler.directives.AgreesInside other) (source : Text) :
    (transpiler.withDirectives other).render source = transpiler.render source := by
  rw [render, answersAt_agreesInside h, renderWith_agreesInside h]
  rfl

end

end Transpiler

/-- The matching parenthesis of a byte position is the end of the one group that stands there. From its
    opening parenthesis on groups are open until it is read, and for ever if there is none. An argument
    in a text is the text without its parentheses, which is balanced, in parentheses, and no directive is
    ever given another one. -/
theorem Text.matchingParen?_groups (transpiler : Transpiler) (t : Text) (position : Nat) :
    (∀ close, matchingParen? t position = some close ↔ (utf8 t).IsGroupAt position close) ∧
    (matchingParen? t position = none ↔ ∀ close, ¬ (utf8 t).IsGroupAt position close) ∧
    (∀ close close', (utf8 t).IsGroupAt position close → (utf8 t).IsGroupAt position close' → close = close') ∧
    ((utf8 t)[position]? = some (Bytes.ascii '(') →
      (∀ close, matchingParen? t position = some close →
        (∀ count, 0 < count → count ≤ close - position → 0 < openGroups t position count) ∧
          openGroups t position (close - position + 1) = 0) ∧
      (matchingParen? t position = none → ∀ count, 0 < count → 0 < openGroups t position count)) ∧
    (∀ part ∈ (DirectiveTag.split t).1, ∀ argument, part.2.argument = .given argument →
      argument = '(' :: (stripParentheses argument ++ [')']) ∧ Bytes.Balanced (utf8 (stripParentheses argument))) ∧
    ∀ other, transpiler.directives.AgreesInside other →
      (transpiler.withDirectives other).render t = transpiler.render t := by
  refine ⟨fun _ => matchingParen?_eq_some_iff, matchingParen?_eq_none_iff, ?_, openGroups_pos, ?_, ?_⟩
  · intro close close' hgroup hgroup'
    have hfound := matchingParen?_eq_some_iff.2 hgroup
    rw [matchingParen?_eq_some_iff.2 hgroup'] at hfound
    exact (Option.some.inj hfound).symm
  · intro part hpart argument hargument
    apply DirectiveTag.isParenthesized_of_mem_split hpart
    rw [hargument]
    rfl
  · exact fun other hagrees => Transpiler.render_agreesInside hagrees t

/-- A group behind a character of two bytes, with a parenthesis in quotes, as an argument. -/
def quotedParen : Text := "<@d(é(')', (x)))".toList

/-- Its one directive gives `odd` for the argument `y`, which stands in no parentheses, and `a` for all others. -/
def oddRegistry (odd : Text) : Registry :=
  Registry.empty.insert ['d'] fun argument => .done (if argument = some ['y'] then odd else ['a'])

theorem oddRegistry_agreesInside (odd odd' : Text) : (oddRegistry odd).AgreesInside (oddRegistry odd') where
  names := rfl
  find? name := by
    rw [oddRegistry, oddRegistry, Registry.find?_insert, Registry.find?_insert]
    split
    case isFalse => exact .none
    case isTrue =>
      refine .some fun argument hargument => ?_
      have hodd : argument ≠ some ['y'] := by
        rintro rfl
        exact absurd (hargument ['y'] rfl).1 (by decide)
      simp [hodd]

theorem Text.matchingParen?_groups_quotedParen :
    (utf8 quotedParen).IsGroupAt 6 15 ∧ (∀ close, ¬ (utf8 "é((a)".toList).IsGroupAt 2 close) ∧
      0 < openGroups quotedParen 6 9 ∧ openGroups quotedParen 6 10 = 0 ∧
      Bytes.Balanced (utf8 (stripParentheses "(é(')', (x)))".toList)) ∧
      ((Transpiler.standard (oddRegistry [])).withDirectives (oddRegistry ['b'])).render quotedParen =
        (Transpiler.standard (oddRegistry [])).render quotedParen := by
  have hfound : matchingParen? quotedParen 6 = some 15 := by decide +kernel
  have hopen : (utf8 quotedParen)[6]? = some (Bytes.ascii '(') := by decide +kernel
  have hpart : (([], ⟨false, ['d'], [], .given "(é(')', (x)))".toList⟩) : Text × DirectiveTag) ∈
      (DirectiveTag.split quotedParen).1 := by decide +kernel
  obtain ⟨hgroup, -, -, hcount, hargument, hrender⟩ :=
    matchingParen?_groups (Transpiler.standard (oddRegistry [])) quotedParen 6
  obtain ⟨hpos, hzero⟩ := (hcount hopen).1 15 hfound
  refine ⟨(hgroup 15).1 hfound, ?_, hpos 9 (by decide) (by decide), hzero, (hargument _ hpart _ rfl).2,
    hrender _ (oddRegistry_agreesInside [] ['b'])⟩
  exact (matchingParen?_groups (Transpiler.standard .builtins) "é((a)".toList 2).2.1.1 (by decide +kernel)

end Template
