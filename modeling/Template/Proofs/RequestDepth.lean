import Mathlib.Data.List.Chain
import Template.Proofs.FooterTail
import Template.Proofs.NativeSpan
import Template.Proofs.Request

/-! # How deep requests nest

A directive that asks only about the text inside its argument asks about less than was scanned: the
introducer and the name of its tag are no part of it. So such requests come to an end without a limit on
nesting, and no limit taken from the length of the markup is ever met.
-/

namespace Template

theorem Text.byteLength_stripParentheses_le (t : Text) : byteLength t.stripParentheses ≤ byteLength t := by
  unfold stripParentheses
  split
  case h_1 rest =>
    cases hstrip : stripSuffix? [')'] rest with
    | none => exact Nat.le_refl _
    | some inside =>
      rw [stripSuffix?_eq_some hstrip]
      simp only [Option.getD_some, byteLength_cons, byteLength_append]
      omega
  case h_2 => exact Nat.le_refl _

namespace Markers

variable {markers : Markers}

theorem byteLength_withoutComments_le (parts : List CommentPart) :
    Text.byteLength (withoutComments parts) ≤ Text.byteLength (markers.withComments parts) := by
  induction parts with
  | nil => exact Nat.le_refl _
  | cons part parts ih =>
    rw [withoutComments_cons, withComments_cons]
    simp only [Text.byteLength_append]
    omega

/-- A text is not longer without its comments. -/
theorem byteLength_le_of_stripComments {offset : Nat} {t kept : Text}
    (h : markers.stripComments offset t = .ok kept) : Text.byteLength kept ≤ Text.byteLength t := by
  rw [stripComments_eq] at h
  split at h
  case h_2 => cases h
  case h_1 =>
    cases h
    have hparts := @byteLength_withoutComments_le markers (markers.splitComments t).1
    have ht := congrArg Text.byteLength (withComments_splitComments markers t)
    rw [Text.byteLength_append] at ht
    rw [keptText, Text.byteLength_append]
    omega

end Markers

namespace DirectiveTag

variable {t : Text} {tag : DirectiveTag}

/-- Two bytes of a tag are its introducer, and a name has one at least. -/
theorem byteLength_argument_le (h : ∃ before, (before, tag) ∈ (split t).1) :
    Text.byteLength (tag.argument.text?.getD []) + 3 ≤ Text.byteLength tag.source := by
  obtain ⟨before, hpart⟩ := h
  obtain ⟨front, u, rest, -, hstands⟩ := (parses_splitAfter none t).exists_standsAt hpart
  obtain @⟨escaped, name, spacing, after, _, argument, -, hname, -, -, -, -, -⟩ := hstands
  have hpos := Text.byteLength_pos hname
  have hintroducer : Text.byteLength directiveIntroducer = 2 := rfl
  simp only [source, unescaped, Text.byteLength_append, hintroducer]
  omega

theorem byteLength_source_le {part : Text × DirectiveTag} {parts : List (Text × DirectiveTag)} {last : Text}
    (h : part ∈ parts) : Text.byteLength part.2.source ≤ Text.byteLength (unsplit parts last) := by
  induction parts with
  | nil => cases h
  | cons first parts ih =>
    rw [unsplit_cons]
    simp only [Text.byteLength_append]
    rcases List.mem_cons.1 h with rfl | h
    · omega
    · have hlater := ih h
      omega

/-- A scan goes round at most once for every three bytes. -/
theorem length_split_le (t : Text) : 3 * (split t).1.length ≤ Text.byteLength t := by
  have hsources : ∀ part ∈ (split t).1, 3 ≤ Text.byteLength part.2.source := fun part hpart =>
    Nat.le_of_add_left_le (byteLength_argument_le ⟨part.1, hpart⟩)
  have htext : unsplit (split t).1 (split t).2 = t := unsplit_splitAfter none t
  generalize (split t).1 = parts at hsources htext
  rw [← htext]
  clear htext
  induction parts with
  | nil => exact Nat.zero_le _
  | cons part parts ih =>
    rw [List.forall_mem_cons] at hsources
    rw [unsplit_cons, List.length_cons]
    simp only [Text.byteLength_append]
    have hfirst := hsources.1
    have hlater := ih hsources.2
    omega

end DirectiveTag

theorem Action.not_asks_ofExcept {answers : Answers} {known : List Text} {asked : Action.Request}
    {context : Context} (outcome : Except TranspileError Text) :
    ¬ (Action.ofExcept outcome).Asks answers known asked context := by
  cases outcome <;> exact id

namespace Registry

variable {registry : Registry} {answers : Answers} {asked : Action.Request}

/-- Whatever it is answered, a directive has text rewritten only if it is the text inside its argument. It
    may have the echo tags of any text rewritten. -/
def AsksInside (registry : Registry) : Prop :=
  ∀ name handler, registry.find? name = some handler → ∀ argument answers context request,
    (handler argument).Asks answers registry.names request context →
      request.text = (argument.getD []).stripParentheses

theorem Asks.exists_mem {tags : List DirectiveTag} {context : Context} (h : registry.Asks answers asked tags context) :
    ∃ tag ∈ tags, ∃ handler between, registry.handler? tag = some handler ∧
      (handler tag.argument.text?).Asks answers registry.names asked between := by
  induction h with
  | here hhandler hclosed hasks => exact ⟨_, List.mem_cons_self, _, _, hhandler, hasks⟩
  | later hfirst hmore ih =>
    obtain ⟨tag, htag, hasks⟩ := ih
    exact ⟨tag, List.mem_cons_of_mem _ htag, hasks⟩

/-- The built-in directives ask for nothing. -/
theorem builtins_not_asks {name : Text} {handler : Handler} (hfind : builtins.find? name = some handler)
    (argument : Option Text) (known : List Text) (context : Context) :
    ¬ (handler argument).Asks answers known asked context := by
  rcases builtins_cases hfind argument with ⟨-, rfl⟩ | ⟨-, ⟨code, hdone⟩ | ⟨error, hfails⟩⟩
  · unfold extendLayout
    rcases required_cases "extends".toList argument with ⟨text, -, hgiven⟩ | ⟨error, hfails⟩
    · rw [hgiven]
      exact id
    · rw [hfails]
      exact id
  · rw [hdone]
    exact id
  · rw [hfails]
    exact id

end Registry

namespace Transpiler

variable {transpiler : Transpiler} {answers : Answers} {request asked : Action.Request}

theorem SpansScan.byteLength_le {spans : List Span} {context start : Context} {text : Text}
    (h : transpiler.SpansScan answers spans context text start) :
    Text.byteLength text ≤ Text.byteLength ((spans.filter Span.isMarkup).flatMap Span.text) := by
  induction h with
  | here hmarkup hstrip =>
    rw [List.filter_cons_of_pos hmarkup, List.flatMap_cons, Text.byteLength_append]
    exact (Markers.byteLength_le_of_stripComments hstrip).trans (Nat.le_add_right _ _)
  | afterMarkup hmarkup hfirst hmore ih =>
    rw [List.filter_cons_of_pos hmarkup, List.flatMap_cons, Text.byteLength_append]
    omega
  | afterNative hnative hmore ih =>
    rw [List.filter_cons_of_neg (by simp [hnative])]
    exact ih

/-- Markup is a part of its template. -/
theorem byteLength_markup_le (source : Text) :
    Text.byteLength (((Span.ofText source).filter Span.isMarkup).flatMap Span.text) ≤ Text.byteLength source := by
  have hparts : ∀ spans : List Span, Text.byteLength ((spans.filter Span.isMarkup).flatMap Span.text) ≤
      Text.byteLength (spans.flatMap Span.text) := by
    intro spans
    induction spans with
    | nil => exact Nat.le_refl _
    | cons span spans ih =>
      rw [List.filter_cons, List.flatMap_cons, Text.byteLength_append]
      split
      · rw [List.flatMap_cons, Text.byteLength_append]
        omega
      · omega
  calc Text.byteLength (((Span.ofText source).filter Span.isMarkup).flatMap Span.text)
      ≤ Text.byteLength ((Span.ofText source).flatMap Span.text) := hparts _
    _ = Text.byteLength source := congrArg Text.byteLength (Span.flatMap_text_ofTextAt 0 source)

/-- What is scanned to answer a request is not longer than its text. -/
theorem Scans.byteLength_le {text : Text} {start : Context} (h : transpiler.Scans answers request text start) :
    Text.byteLength text ≤ Text.byteLength request.text := by
  cases h with
  | statements => exact Nat.le_refl _
  | render hspans => exact hspans.byteLength_le.trans (byteLength_markup_le _)

section

variable (hinside : transpiler.directives.AsksInside)

include hinside

/-- What is asked in a scan is shorter than the text that is scanned. -/
theorem byteLength_of_scanAsks {text : Text} {context : Context}
    (h : transpiler.ScanAsks answers asked text context) :
    Text.byteLength asked.text + 3 ≤ Text.byteLength text := by
  obtain ⟨tag, htag, handler, between, hhandler, hasks⟩ := Registry.Asks.exists_mem h
  obtain ⟨part, hpart, rfl⟩ := List.mem_map.1 htag
  have hargument := DirectiveTag.byteLength_argument_le ⟨part.1, hpart⟩
  have hsource := @DirectiveTag.byteLength_source_le part _ (DirectiveTag.split text).2 hpart
  have htext : DirectiveTag.unsplit (DirectiveTag.split text).1 (DirectiveTag.split text).2 = text :=
    DirectiveTag.unsplit_splitAfter none text
  have hasked := hinside _ _ (Registry.handler?_eq_some hhandler).2 _ _ _ _ hasks
  have hstrip := Text.byteLength_stripParentheses_le (part.2.argument.text?.getD [])
  rw [htext] at hsource
  rw [hasked]
  omega

theorem Asks.byteLength_lt (h : transpiler.Asks answers request asked) :
    Text.byteLength asked.text + 3 ≤ Text.byteLength request.text := by
  obtain ⟨text, start, hscans, hasks⟩ := h
  exact (byteLength_of_scanAsks hinside hasks).trans hscans.byteLength_le

/-- The answers for requests that nest at most so deep are those without a limit, as long as half the
    length of the text that is asked about is less. -/
theorem ends_answersAt {depth : Nat} (h : Text.byteLength request.text < 2 * depth) :
    transpiler.Ends request ((transpiler.answersAt depth).reply request) := by
  induction depth generalizing request with
  | zero => omega
  | succ depth ih =>
    -- What is asked is three bytes shorter, and the level below has to be good for two less.
    rw [answersAt_succ]
    refine .intro _ (answersAt_echoes transpiler depth) fun asked hasks => ih ?_
    have hshorter := hasks.byteLength_lt hinside
    omega

/-- A template is rewritten as it would be without a limit on nesting. -/
theorem ends_render (source : Text) (context : Context) :
    transpiler.Ends (.render source context) (transpiler.render source, context) := by
  refine .intro (transpiler.answersAt (nestingLimit source)) (answersAt_echoes transpiler _) fun asked hasks =>
    ends_answersAt hinside ?_
  obtain ⟨text, start, hscans, hasks⟩ := hasks
  cases hscans with
  | render hspans =>
    -- The limit is taken from the markup, and nothing else is scanned.
    have hshorter := byteLength_of_scanAsks hinside hasks
    have hmarkup := hspans.byteLength_le
    unfold nestingLimit
    omega

/-- What is asked where deeper requests are answered up to a limit is asked without a limit, too. -/
theorem nests_of_asks {depth : Nat} (h : Text.byteLength request.text ≤ 2 * depth)
    (hasks : transpiler.Asks (transpiler.answersAt depth) request asked) : transpiler.Nests request asked := by
  refine ⟨transpiler.answersAt depth, answersAt_echoes transpiler depth, fun other hother => ?_, hasks⟩
  have hshorter := hother.byteLength_lt hinside
  exact ends_answersAt hinside (by omega)

/-- Requests that are each made to answer the one before take three bytes each. -/
theorem length_le_of_isChain {chain : List Action.Request} (h : (request :: chain).IsChain transpiler.Nests) :
    3 * chain.length ≤ Text.byteLength request.text := by
  induction chain generalizing request with
  | nil => exact Nat.zero_le _
  | cons asked chain ih =>
    obtain ⟨⟨inner, -, -, hasks⟩, hchain⟩ := List.isChain_cons_cons.1 h
    have hshorter := hasks.byteLength_lt hinside
    have hlater := ih hchain
    rw [List.length_cons]
    omega

end

/-- Directives that have only the text inside their own argument rewritten always come to an end: without a
    limit on nesting a template is rewritten in one way, which is what it is rewritten to with the limit. A
    scan goes round at most once for every three bytes, what is scanned on behalf of one of its directives is
    shorter, and the requests that are open at one time are at most half as many as the template has bytes. -/
theorem render_ends (hhooks : transpiler.hooks = []) (hinside : transpiler.directives.AsksInside) (source : Text)
    (context : Context) :
    (∀ outcome, transpiler.Ends (.render source context) outcome ↔
      outcome = (transpiler.render source, context)) ∧
    (∀ text, 3 * (DirectiveTag.split text).1.length ≤ Text.byteLength text) ∧
    (∀ answers asked text start, transpiler.ScanAsks answers asked text start →
      ∀ answers' nested start', transpiler.Scans answers' asked nested start' →
        Text.byteLength nested < Text.byteLength text) ∧
    ∀ chain : List Action.Request, (.render source context :: chain).IsChain transpiler.Nests →
      chain.length ≤ Text.byteLength source / 2 := by
  refine ⟨fun outcome => ⟨fun h => ?_, ?_⟩, DirectiveTag.length_split_le, ?_, ?_⟩
  · exact h.unique hhooks (ends_render hinside source context)
  · rintro rfl
    exact ends_render hinside source context
  · intro answers asked text start hasks answers' nested start' hscans
    have hshorter := byteLength_of_scanAsks hinside hasks
    have hwithin := hscans.byteLength_le
    omega
  · intro chain hchain
    have hlength : 3 * chain.length ≤ Text.byteLength source := length_le_of_isChain hinside hchain
    omega

/-- A directive that carries out the directives inside its argument, and rewrites the echo tags of the rest. -/
def rewriteInside : Handler := fun argument => do
  let inner ← .transpileStatements (argument.getD []).stripParentheses
  .transpileEchoes inner

/-- A directive that rewrites the text inside its argument as a template of its own. -/
def renderInside : Handler := fun argument => .renderText (argument.getD []).stripParentheses

/-- The transpiler with these two directives. -/
def callingBack : Transpiler :=
  ((standard .builtins).addDirective "part".toList rewriteInside).addDirective "whole".toList renderInside

theorem rewriteInside_asks {known : List Text} {context : Context} {argument : Option Text}
    (h : (rewriteInside argument).Asks answers known asked context) :
    asked.text = (argument.getD []).stripParentheses := by
  rcases h with rfl | ⟨-, h⟩
  · rfl
  · cases hanswer : (answers.statements (argument.getD []).stripParentheses context).1 with
    | error error =>
      rw [hanswer] at h
      cases h
    | ok inner =>
      rw [hanswer] at h
      exact absurd h (Action.not_asks_ofExcept _)

theorem renderInside_asks {known : List Text} {context : Context} {argument : Option Text}
    (h : (renderInside argument).Asks answers known asked context) :
    asked.text = (argument.getD []).stripParentheses := by
  rcases h with rfl | ⟨-, h⟩
  · rfl
  · exact absurd h (Action.not_asks_ofExcept _)

theorem callingBack_asksInside : callingBack.directives.AsksInside := by
  intro name handler hfind argument answers context request hasks
  change ((Registry.builtins.insert "part".toList rewriteInside).insert "whole".toList renderInside).find? name =
    some handler at hfind
  rw [Registry.find?_insert, Registry.find?_insert] at hfind
  split at hfind
  case isTrue =>
    cases hfind
    exact renderInside_asks hasks
  case isFalse =>
    split at hfind
    case isTrue =>
      cases hfind
      exact rewriteInside_asks hasks
    case isFalse => exact absurd hasks (Registry.builtins_not_asks hfind argument _ context)

/-- A part in a whole template in a part. -/
def callingTemplate : Text := "<@part(a <@whole(\x7b\x7b $x \x7d\x7d <@part(c)))".toList

/-- The requests that are open when the innermost part is carried out. -/
def callingRequests : List Action.Request :=
  [.statements "a <@whole(\x7b\x7b $x \x7d\x7d <@part(c))".toList .start,
   .render "\x7b\x7b $x \x7d\x7d <@part(c)".toList .start, .statements ['c'] .start]

theorem callingBack_scanAsks {text argument : Text} (depth : Nat) :
    ((DirectiveTag.split text).1.map Prod.snd = [⟨false, "part".toList, [], .given argument⟩] →
      callingBack.ScanAsks (callingBack.answersAt depth) (.statements argument.stripParentheses .start) text .start) ∧
    ((DirectiveTag.split text).1.map Prod.snd = [⟨false, "whole".toList, [], .given argument⟩] →
      callingBack.ScanAsks (callingBack.answersAt depth) (.render argument.stripParentheses .start) text .start) := by
  unfold ScanAsks
  refine ⟨fun htags => ?_, fun htags => ?_⟩ <;> rw [htags]
  · have hhandler : callingBack.directives.handler? ⟨false, "part".toList, [], .given argument⟩ =
        some rewriteInside := rfl
    exact .here hhandler (by simp) (.inl rfl)
  · have hhandler : callingBack.directives.handler? ⟨false, "whole".toList, [], .given argument⟩ =
        some renderInside := rfl
    exact .here hhandler (by simp) (.inl rfl)

theorem callingBack_scans {source : Text} {answers : Answers} {context : Context}
    (hspans : Span.ofText source = [⟨.markup, source, 0⟩])
    (hstrip : callingBack.comments.stripComments 0 source = .ok source) :
    callingBack.Scans answers (.render source context) source .start := by
  refine .render ?_
  rw [hspans]
  exact .here rfl hstrip

theorem callingRequests_isChain : (.render callingTemplate .start :: callingRequests).IsChain callingBack.Nests := by
  have hnests := fun {request asked} hlength hasks =>
    @nests_of_asks callingBack request asked callingBack_asksInside 30 hlength hasks
  have houter : callingBack.Scans (callingBack.answersAt 30) (.render callingTemplate .start) callingTemplate .start :=
    callingBack_scans (by decide +kernel) (by decide +kernel)
  have hinner : callingBack.Scans (callingBack.answersAt 30)
      (.render "\x7b\x7b $x \x7d\x7d <@part(c)".toList .start) "\x7b\x7b $x \x7d\x7d <@part(c)".toList .start :=
    callingBack_scans (by decide +kernel) (by decide +kernel)
  have hfirst := (@callingBack_scanAsks callingTemplate "(a <@whole(\x7b\x7b $x \x7d\x7d <@part(c)))".toList 30).1
    (by decide +kernel)
  have hsecond := (@callingBack_scanAsks "a <@whole(\x7b\x7b $x \x7d\x7d <@part(c))".toList
    "(\x7b\x7b $x \x7d\x7d <@part(c))".toList 30).2 (by decide +kernel)
  have hthird := (@callingBack_scanAsks "\x7b\x7b $x \x7d\x7d <@part(c)".toList "(c)".toList 30).1 (by decide +kernel)
  unfold callingRequests
  refine .cons_cons (hnests (by decide) ⟨_, _, houter, hfirst⟩) (.cons_cons (hnests (by decide)
    ⟨_, _, .statements, hsecond⟩) (.cons_cons (hnests (by decide) ⟨_, _, hinner, hthird⟩) (.singleton _)))

theorem render_ends_callingBack :
    callingBack.hooks = [] ∧ callingBack.directives.AsksInside ∧
      callingBack.Ends (.render callingTemplate .start) (.ok "a <?php echo e($x); ?> c".toList, .start) ∧
      (.render callingTemplate .start :: callingRequests).IsChain callingBack.Nests ∧
      callingRequests.length ≤ Text.byteLength callingTemplate / 2 := by
  have hrender : callingBack.render callingTemplate = .ok "a <?php echo e($x); ?> c".toList := by decide +kernel
  obtain ⟨hends, -, -, hdepth⟩ := render_ends rfl callingBack_asksInside callingTemplate .start
  refine ⟨rfl, callingBack_asksInside, ?_, callingRequests_isChain, hdepth _ callingRequests_isChain⟩
  rw [← hrender]
  exact (hends _).2 rfl

end Transpiler

end Template
