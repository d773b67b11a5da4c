import Template.Transpiler.Render

/-! # Runs

A step of a run gives an outcome and the state after it. A run over spans is the runs over
them one after another; a run over markup without hooks drops comments, carries directives
out and rewrites echo tags. The first step that fails decides.
-/

namespace Template

namespace Run

variable {ε σ α β : Type} {step : ExceptT ε (StateM σ) α} {next : α → ExceptT ε (StateM σ) β}
  {before after : σ} {error : ε}

/-- A step and the one after it: the first failure is the outcome, in the state it leaves. -/
theorem bind_apply (step : ExceptT ε (StateM σ) α) (next : α → ExceptT ε (StateM σ) β) (before : σ) :
    (step >>= next) before =
      match step before with
      | (.error error, after) => (.error error, after)
      | (.ok value, after) => next value after := by
  change (match step before with | (outcome, after) => ExceptT.bindCont next outcome after) = _
  cases step before with
  | mk outcome after => cases outcome <;> rfl

theorem bind_apply_ok {value : α} (h : step before = (.ok value, after)) :
    (step >>= next) before = next value after := by
  rw [bind_apply, h]

theorem bind_apply_error (h : step before = (.error error, after)) :
    (step >>= next) before = (.error error, after) := by
  rw [bind_apply, h]

theorem bind_eq_error (h : (step >>= next) before = (.error error, after)) :
    step before = (.error error, after) ∨
      ∃ value between, step before = (.ok value, between) ∧ next value between = (.error error, after) := by
  rw [bind_apply] at h
  split at h
  case _ hstep =>
    cases h
    exact .inl hstep
  case _ value between hstep => exact .inr ⟨value, between, hstep, h⟩

theorem exists_of_bind_eq_ok {result : β} (h : (step >>= next) before = (.ok result, after)) :
    ∃ value between, step before = (.ok value, between) ∧ next value between = (.ok result, after) := by
  rw [bind_apply] at h
  split at h
  · cases h
  case _ value between hstep => exact ⟨value, between, hstep, h⟩

theorem map_apply (f : α → β) (step : ExceptT ε (StateM σ) α) (before : σ) :
    (f <$> step) before = ((step before).1.map f, (step before).2) := by
  rw [map_eq_pure_bind, bind_apply]
  cases step before with
  | mk outcome after => cases outcome <;> rfl

theorem stateM_bind_apply (step : StateM σ α) (next : α → StateM σ β) (before : σ) :
    (step >>= next) before = next (step before).1 (step before).2 := rfl

end Run

namespace Action

variable {α : Type} {answers : Answers} {known : List Text} {context : Context}

theorem run_statements (text : Text) (next : Except TranspileError Text → Action α) :
    (statements text next).run answers known context =
      if Answers.tooDeep (answers.statements text context).1 then
        (.error .nesting, (answers.statements text context).2)
      else (next (answers.statements text context).1).run answers known (answers.statements text context).2 := rfl

theorem run_render (text : Text) (next : Except TranspileError Text → Action α) :
    (render text next).run answers known context =
      if Answers.tooDeep (answers.render text) then (.error .nesting, context)
      else (next (answers.render text)).run answers known context := rfl

end Action

namespace Transpiler

variable {transpiler : Transpiler} {answers : Answers} {context after : Context} {spans : List Span}

/-- The markup in which directives are looked for: a text without its comments, after the hooks. -/
def prepare (transpiler : Transpiler) (answers : Answers) (text : Text) : RunM Text := do
  let offset := (← get).offset
  let kept ← renderMarkup.liftExcept (transpiler.comments.stripComments offset text)
  transpiler.applyHooks answers kept

theorem answersAt_echoes (transpiler : Transpiler) (depth : Nat) :
    (transpiler.answersAt depth).echoes = transpiler.echoes.transpile := by
  cases depth <;> rfl

theorem applyHooks_of_nil (hhooks : transpiler.hooks = []) (kept : Text) :
    transpiler.applyHooks answers kept context = (.ok kept, context) := by
  rw [applyHooks, hhooks]
  rfl

theorem prepare_apply (text : Text) : transpiler.prepare answers text context =
    match transpiler.comments.stripComments context.offset text with
    | .error error => (.error error, context)
    | .ok kept => transpiler.applyHooks answers kept context := by
  change (renderMarkup.liftExcept (transpiler.comments.stripComments context.offset text) >>= fun kept =>
    transpiler.applyHooks answers kept) context = _
  cases transpiler.comments.stripComments context.offset text <;> rfl

theorem renderMarkup_eq (text : Text) : transpiler.renderMarkup answers text = (do
    let markup ← transpiler.prepare answers text
    let pieces ← transpiler.scan answers markup
    renderMarkup.liftExcept (transpiler.echoes.transpilePieces pieces)) := by
  simp only [renderMarkup, prepare, bind_assoc]

/-- Without hooks, markup loses its comments, has its directives carried out, and then its echo
    tags rewritten. -/
theorem renderMarkup_apply (hhooks : transpiler.hooks = []) (t : Text) :
    transpiler.renderMarkup answers t context =
      match transpiler.comments.stripComments context.offset t with
      | .error error => (.error error, context)
      | .ok kept =>
        match transpiler.directives.carryOut answers context.offset (DirectiveTag.split kept).1
          (DirectiveTag.split kept).2 context with
        | (.error error, context) => (.error error, context)
        | (.ok pieces, context) => (transpiler.echoes.transpilePieces pieces, context) := by
  have hscan : ∀ kept : Text, transpiler.scan answers kept context =
      transpiler.directives.carryOut answers context.offset (DirectiveTag.split kept).1
        (DirectiveTag.split kept).2 context := fun _ => rfl
  rw [renderMarkup_eq, Run.bind_apply, prepare_apply]
  cases transpiler.comments.stripComments context.offset t with
  | error error => rfl
  | ok kept =>
    dsimp only
    rw [applyHooks_of_nil hhooks]
    dsimp only
    rw [Run.bind_apply, hscan]
    cases transpiler.directives.carryOut answers context.offset (DirectiveTag.split kept).1
        (DirectiveTag.split kept).2 context with
    | mk outcome context => cases outcome <;> rfl

theorem renderSpans_native (code : Text) (offset : Nat) :
    transpiler.renderSpans answers (⟨.native, code, offset⟩ :: spans) context =
      (do
        let later ← transpiler.renderSpans answers spans
        pure (code ++ later) : RunM Text) context := rfl

theorem renderSpans_markup (t : Text) (offset : Nat) :
    transpiler.renderSpans answers (⟨.markup, t, offset⟩ :: spans) context =
      (do
        let here ← transpiler.renderMarkup answers t
        let later ← transpiler.renderSpans answers spans
        pure (here ++ later) : RunM Text) { context with offset } := rfl

theorem renderWith_eq (source : Text) : transpiler.renderWith answers source =
    (transpiler.renderSpans answers (Span.ofText source) .start).1.map fun document =>
      withFooter document (transpiler.renderSpans answers (Span.ofText source) .start).2.footer := rfl

theorem renderWith_of_ok {source document : Text}
    (h : transpiler.renderSpans answers (Span.ofText source) .start = (.ok document, after))
    (hfooter : after.footer = []) : transpiler.renderWith answers source = .ok document := by
  rw [renderWith_eq, h]
  simp only [Except.map, withFooter, hfooter, if_true]

/-- A template of one markup span is what its markup is rewritten to, if the footer stays empty. -/
theorem render_of_markup {source : Text} {outcome : Except TranspileError Text}
    (hspan : Span.ofText source = [⟨.markup, source, 0⟩])
    (hmarkup : ∀ answers, transpiler.renderMarkup answers source .start = (outcome, .start)) :
    transpiler.render source = outcome := by
  have hspans : ∀ answers, transpiler.renderSpans answers (Span.ofText source) .start =
      (outcome, .start) := by
    intro answers
    rw [hspan, renderSpans_markup]
    cases outcome with
    | error error => exact Run.bind_apply_error (hmarkup answers)
    | ok document =>
      refine (Run.bind_apply_ok (hmarkup answers)).trans ?_
      change (Except.ok (document ++ []), Context.start) = _
      rw [List.append_nil]
  rw [render, renderWith_eq, hspans]
  cases outcome <;> rfl

/-- A run over spans fails where a run over the markup of one of them does. -/
theorem renderSpans_eq_error {error : TranspileError}
    (h : transpiler.renderSpans answers spans context = (.error error, after)) :
    ∃ span ∈ spans, span.isMarkup = true ∧ ∃ start : Context, start.offset = span.offset ∧
      transpiler.renderMarkup answers span.text start = (.error error, after) := by
  induction spans generalizing context with
  | nil => cases h
  | cons span spans ih =>
    obtain ⟨kind, text, offset⟩ := span
    have later : ∀ between, transpiler.renderSpans answers spans between = (.error error, after) →
        ∃ span ∈ ⟨kind, text, offset⟩ :: spans, span.isMarkup = true ∧ ∃ start : Context,
          start.offset = span.offset ∧
            transpiler.renderMarkup answers span.text start = (.error error, after) := by
      intro between hlater
      obtain ⟨span, hmem, hspan⟩ := ih hlater
      exact ⟨span, List.mem_cons_of_mem _ hmem, hspan⟩
    cases kind with
    | native =>
      rw [renderSpans_native] at h
      rcases Run.bind_eq_error h with hlater | ⟨_, _, _, hdone⟩
      · exact later _ hlater
      · cases hdone
    | markup =>
      rw [renderSpans_markup] at h
      rcases Run.bind_eq_error h with hhere | ⟨_, between, _, h⟩
      · exact ⟨⟨.markup, text, offset⟩, List.mem_cons_self, rfl, _, rfl, hhere⟩
      · rcases Run.bind_eq_error h with hlater | ⟨_, _, _, hdone⟩
        · exact later _ hlater
        · cases hdone

theorem renderWith_eq_error {source : Text} {error : TranspileError}
    (h : transpiler.renderWith answers source = .error error) :
    ∃ after, transpiler.renderSpans answers (Span.ofText source) .start = (.error error, after) := by
  cases hspans : transpiler.renderSpans answers (Span.ofText source) .start with
  | mk outcome after =>
    refine ⟨after, ?_⟩
    rw [renderWith_eq, hspans] at h
    cases outcome with
    | error e =>
      cases h
      rfl
    | ok document => cases h

end Transpiler

end Template
