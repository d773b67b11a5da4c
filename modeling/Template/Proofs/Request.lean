import Template.Proofs.DirectiveScan

/-! # Requests that nest

A directive may ask for text to be rewritten while it is carried out, and the directives in that text may
ask in turn. Here requests nest without a limit. A request ends if everything that is asked on the way ends,
and it ends with what the run gives for these answers; there is only one such end.

Hooks ask in the same way, but they are not looked at here: the requests of a run are those of its
directives, and the main statements are about transpilers without hooks.
-/

namespace Template

/-- A request for rewritten text, with the state in which it is made. -/
inductive Action.Request where
  /-- A text is to have its directives carried out. -/
  | statements (text : Text) (context : Context)
  /-- A text is to be rewritten as a template of its own. -/
  | render (text : Text) (context : Context)

/-- The text that is to be rewritten. -/
def Action.Request.text : Action.Request → Text
  | statements text _ | render text _ => text

/-- The answer to a request, and the state after it. -/
def Answers.reply (answers : Answers) : Action.Request → Except TranspileError Text × Context
  | .statements text context => answers.statements text context
  | .render text context => (answers.render text, context)

/-- The request is made when the action is carried out from a state. -/
def Action.Asks {α : Type} (answers : Answers) (known : List Text) (request : Action.Request) :
    Action α → Context → Prop
  | .done _, _ | .fail _, _ => False
  | .pushFooter line next, context =>
    next.Asks answers known request { context with footer := context.footer ++ [line] }
  | .readFooter next, context => (next context.footer).Asks answers known request context
  | .readOffset next, context => (next context.offset).Asks answers known request context
  | .readNames next, context => (next known).Asks answers known request context
  | .statements text next, context =>
    request = .statements text context ∨ Answers.tooDeep (answers.statements text context).1 = false ∧
      (next (answers.statements text context).1).Asks answers known request (answers.statements text context).2
  | .echoes text next, context =>
    (next (answers.echoes text context.offset)).Asks answers known request context
  | .render text next, context =>
    request = .render text context ∨ Answers.tooDeep (answers.render text) = false ∧
      (next (answers.render text)).Asks answers known request context

/-- The request is made when tags are passed one after another from a state. -/
inductive Registry.Asks (registry : Registry) (answers : Answers) (request : Action.Request) :
    List DirectiveTag → Context → Prop where
  /-- The first tag has a directive, and this one makes the request. -/
  | here {tag : DirectiveTag} {tags : List DirectiveTag} {context : Context} {handler : Handler}
      (hhandler : registry.handler? tag = some handler) (hclosed : tag.argument ≠ .unclosed)
      (hasks : (handler tag.argument.text?).Asks answers registry.names request context) :
      registry.Asks answers request (tag :: tags) context
  | later {tag : DirectiveTag} {tags : List DirectiveTag} {context between : Context} {output : Option Text}
      (hfirst : registry.Passes answers tag context output between)
      (hmore : registry.Asks answers request tags between) : registry.Asks answers request (tag :: tags) context

namespace Transpiler

variable (transpiler : Transpiler) (answers : Answers)

/-- The request is made when a text is scanned for directives from a state. -/
def ScanAsks (request : Action.Request) (text : Text) (context : Context) : Prop :=
  transpiler.directives.Asks answers request ((DirectiveTag.split text).1.map Prod.snd) context

/-- A run over spans from a state comes to scan a text, in another state. -/
inductive SpansScan : List Span → Context → (text : Text) → (start : Context) → Prop where
  /-- The first span is markup, and the text is left of it without its comments. -/
  | here {span : Span} {spans : List Span} {context : Context} {text : Text} (hmarkup : span.isMarkup = true)
      (hstrip : transpiler.comments.stripComments span.offset span.text = .ok text) :
      SpansScan (span :: spans) context text { context with offset := span.offset }
  | afterMarkup {span : Span} {spans : List Span} {context between start : Context} {text output : Text}
      (hmarkup : span.isMarkup = true)
      (hfirst : transpiler.renderMarkup answers span.text { context with offset := span.offset } =
        (.ok output, between))
      (hmore : SpansScan spans between text start) : SpansScan (span :: spans) context text start
  | afterNative {span : Span} {spans : List Span} {context start : Context} {text : Text}
      (hnative : span.isMarkup = false) (hmore : SpansScan spans context text start) :
      SpansScan (span :: spans) context text start

/-- A text is scanned, from a state, to answer a request. -/
inductive Scans : Action.Request → (text : Text) → (start : Context) → Prop where
  | statements {text : Text} {context : Context} : Scans (.statements text context) text context
  | render {source text : Text} {context start : Context}
      (hspans : transpiler.SpansScan answers (Span.ofText source) .start text start) :
      Scans (.render source context) text start

/-- A request is made to answer another. -/
def Asks (request asked : Action.Request) : Prop :=
  ∃ text start, transpiler.Scans answers request text start ∧ transpiler.ScanAsks answers asked text start

/-- The answers of a run whose directives are given answers in turn. -/
def answersOver : Answers where
  statements := fun text => Piece.joined <$> transpiler.scan answers text
  echoes := transpiler.echoes.transpile
  render := transpiler.renderWith answers

/-- Without a limit on nesting, a request ends with an answer and a state: everything that is asked on the
    way ends with the answer that is used. -/
inductive Ends (transpiler : Transpiler) : Action.Request → Except TranspileError Text × Context → Prop where
  | intro {request : Action.Request} (inner : Answers) (hechoes : inner.echoes = transpiler.echoes.transpile)
      (hinner : ∀ asked, transpiler.Asks inner request asked → transpiler.Ends asked (inner.reply asked)) :
      transpiler.Ends request ((transpiler.answersOver inner).reply request)

/-- A request is made on the way to the end of another. -/
def Nests (transpiler : Transpiler) (request asked : Action.Request) : Prop :=
  ∃ inner : Answers, inner.echoes = transpiler.echoes.transpile ∧
    (∀ other, transpiler.Asks inner request other → transpiler.Ends other (inner.reply other)) ∧
    transpiler.Asks inner request asked

end Transpiler

/-! ## Runs that are given the same answers

Two runs are led side by side. As long as they are answered alike they ask alike, so it is enough that
the answers to what both ask agree. -/

section

variable {answers other : Answers} (hechoes : answers.echoes = other.echoes)

include hechoes

theorem Action.run_congr {α : Type} {known : List Text} (action : Action α) {context : Context}
    (h : ∀ request, action.Asks answers known request context → action.Asks other known request context →
      answers.reply request = other.reply request) :
    action.run answers known context = action.run other known context := by
  induction action generalizing context with
  | done | fail => rfl
  | pushFooter line next ih => exact ih h
  | readFooter next ih | readOffset next ih | readNames next ih => exact ih _ h
  | statements text next ih =>
    have hreply : answers.statements text context = other.statements text context :=
      h (.statements text context) (.inl rfl) (.inl rfl)
    rw [run_statements, run_statements, hreply]
    split
    case isTrue => rfl
    case isFalse hdeep =>
      have hnot := eq_false_of_ne_true hdeep
      refine ih _ fun request hasks hasks' => h request (.inr ?_) (.inr ⟨hnot, hasks'⟩)
      rw [hreply]
      exact ⟨hnot, hasks⟩
  | echoes text next ih =>
    change (next (answers.echoes text context.offset)).run answers known context =
      (next (other.echoes text context.offset)).run other known context
    rw [hechoes]
    refine ih _ fun request hasks hasks' => h request ?_ hasks'
    change (next (answers.echoes text context.offset)).Asks answers known request context
    rw [hechoes]
    exact hasks
  | render text next ih =>
    have hreply : answers.render text = other.render text :=
      congrArg Prod.fst (h (.render text context) (.inl rfl) (.inl rfl))
    rw [run_render, run_render, hreply]
    split
    case isTrue => rfl
    case isFalse hdeep =>
      have hnot := eq_false_of_ne_true hdeep
      refine ih _ fun request hasks hasks' => h request (.inr ?_) (.inr ⟨hnot, hasks'⟩)
      rw [hreply]
      exact ⟨hnot, hasks⟩

namespace Registry

variable {registry : Registry} {context : Context}

theorem carryOutTag_congr (start : Nat) (tag : DirectiveTag) (tags : List DirectiveTag)
    (h : ∀ request, registry.Asks answers request (tag :: tags) context →
      registry.Asks other request (tag :: tags) context → answers.reply request = other.reply request) :
    registry.carryOutTag answers start tag context = registry.carryOutTag other start tag context := by
  cases hhandler : registry.handler? tag with
  | none => rw [carryOutTag_of_none hhandler, carryOutTag_of_none hhandler]
  | some handler =>
    by_cases hargument : tag.argument = .unclosed
    case pos => rw [carryOutTag_of_unclosed hhandler hargument, carryOutTag_of_unclosed hhandler hargument]
    case neg =>
      have hcall : (handler tag.argument.text?).run answers registry.names context =
          (handler tag.argument.text?).run other registry.names context :=
        Action.run_congr hechoes _ fun request hasks hasks' =>
          h request (.here hhandler hargument hasks) (.here hhandler hargument hasks')
      rw [carryOutTag_called hhandler hargument, carryOutTag_called hhandler hargument, Run.bind_apply, hcall,
        Run.bind_apply]

theorem carryOut_congr (base : Nat) (parts : List (Text × DirectiveTag)) (last : Text)
    (h : ∀ request, registry.Asks answers request (parts.map Prod.snd) context →
      registry.Asks other request (parts.map Prod.snd) context → answers.reply request = other.reply request) :
    registry.carryOut answers base parts last context = registry.carryOut other base parts last context := by
  induction parts generalizing base context with
  | nil => rfl
  | cons part parts ih =>
    obtain ⟨before, tag⟩ := part
    have hfirst := carryOutTag_congr hechoes (base + Text.byteLength before) tag _ h
    unfold carryOut
    rw [Run.bind_apply, Run.bind_apply, hfirst]
    cases hrun : registry.carryOutTag other (base + Text.byteLength before) tag context with
    | mk outcome between =>
      cases outcome with
      | error error => rfl
      | ok here =>
        obtain ⟨output, hpasses, -⟩ := carryOutTag_eq_ok_iff.1 (hfirst.trans hrun)
        obtain ⟨output', hpasses', -⟩ := carryOutTag_eq_ok_iff.1 hrun
        dsimp only
        rw [Run.bind_apply, Run.bind_apply,
          ih _ fun request hasks hasks' => h request (.later hpasses hasks) (.later hpasses' hasks')]

end Registry

namespace Transpiler

variable {transpiler : Transpiler} {context : Context}

theorem scan_congr (text : Text)
    (h : ∀ request, transpiler.ScanAsks answers request text context →
      transpiler.ScanAsks other request text context → answers.reply request = other.reply request) :
    transpiler.scan answers text context = transpiler.scan other text context :=
  Registry.carryOut_congr hechoes context.offset _ _ h

variable (hhooks : transpiler.hooks = [])

include hhooks

theorem renderSpans_congr (spans : List Span)
    (h : ∀ text start, transpiler.SpansScan answers spans context text start →
      transpiler.SpansScan other spans context text start → ∀ request,
      transpiler.ScanAsks answers request text start → transpiler.ScanAsks other request text start →
        answers.reply request = other.reply request) :
    transpiler.renderSpans answers spans context = transpiler.renderSpans other spans context := by
  induction spans generalizing context with
  | nil => rfl
  | cons span spans ih =>
    obtain ⟨kind, text, offset⟩ := span
    cases kind with
    | native =>
      have hlater := ih fun text start hscan hscan' => h text start (.afterNative rfl hscan) (.afterNative rfl hscan')
      rw [renderSpans_native, renderSpans_native, Run.bind_apply, Run.bind_apply, hlater]
    | markup =>
      have hmarkup : transpiler.renderMarkup answers text { context with offset } =
          transpiler.renderMarkup other text { context with offset } := by
        rw [renderMarkup_apply hhooks, renderMarkup_apply hhooks]
        cases hstrip : transpiler.comments.stripComments offset text with
        | error error => rfl
        | ok kept =>
          dsimp only
          rw [Registry.carryOut_congr hechoes offset _ _ fun request hasks hasks' =>
            h kept _ (.here rfl hstrip) (.here rfl hstrip) request hasks hasks']
      rw [renderSpans_markup, renderSpans_markup, Run.bind_apply, Run.bind_apply, hmarkup]
      cases hrun : transpiler.renderMarkup other text { context with offset } with
      | mk outcome between =>
        cases outcome with
        | error error => rfl
        | ok here =>
          dsimp only
          rw [Run.bind_apply, Run.bind_apply, ih fun text start hscan hscan' =>
            h text start (.afterMarkup rfl (hmarkup.trans hrun) hscan) (.afterMarkup rfl hrun hscan')]

/-- A request is answered alike if everything that is asked on the way is. -/
theorem reply_congr (request : Action.Request)
    (h : ∀ asked, transpiler.Asks answers request asked → transpiler.Asks other request asked →
      answers.reply asked = other.reply asked) :
    (transpiler.answersOver answers).reply request = (transpiler.answersOver other).reply request := by
  cases request with
  | statements text context =>
    change (Piece.joined <$> transpiler.scan answers text) context =
      (Piece.joined <$> transpiler.scan other text) context
    rw [Run.map_apply, Run.map_apply, scan_congr hechoes text fun asked hasks hasks' =>
      h asked ⟨text, context, .statements, hasks⟩ ⟨text, context, .statements, hasks'⟩]
  | render source context =>
    have hspans : transpiler.renderSpans answers (Span.ofText source) .start =
        transpiler.renderSpans other (Span.ofText source) .start :=
      renderSpans_congr hechoes hhooks _ fun text start hscan hscan' asked hasks hasks' =>
        h asked ⟨text, start, .render hscan, hasks⟩ ⟨text, start, .render hscan', hasks'⟩
    change (transpiler.renderWith answers source, context) = (transpiler.renderWith other source, context)
    rw [renderWith_eq, renderWith_eq, hspans]

end Transpiler

end

namespace Transpiler

variable {transpiler : Transpiler} {request : Action.Request}
  {outcome outcome' : Except TranspileError Text × Context}

/-- A request has one end. -/
theorem Ends.unique (hhooks : transpiler.hooks = []) (h : transpiler.Ends request outcome)
    (h' : transpiler.Ends request outcome') : outcome = outcome' := by
  induction h generalizing outcome' with
  | @intro request inner hechoes hinner ih =>
    obtain @⟨_, inner', hechoes', hinner'⟩ := h'
    exact reply_congr (hechoes.trans hechoes'.symm) hhooks request fun asked hasks hasks' =>
      ih asked hasks (hinner' asked hasks')

/-- A request that is made again on its own way, whatever is answered, has no end. -/
theorem not_ends_of_asks (hasks : ∀ inner, transpiler.Asks inner request request) :
    ¬ transpiler.Ends request outcome := by
  intro h
  induction h with
  | intro inner hechoes hinner ih => exact ih _ (hasks inner) hasks

/-- The answers one level up are those over the answers below. -/
theorem answersAt_succ (transpiler : Transpiler) (depth : Nat) :
    transpiler.answersAt (depth + 1) = transpiler.answersOver (transpiler.answersAt depth) := rfl

end Transpiler

end Template
