import Template.Proofs.Run

/-! # The limit on nesting

A run gives up where requests nest too deeply, and no action goes on after that. So the limit decides
nothing else: a run that has come to an end under one limit comes to the same end under every higher one.
-/

namespace Template

namespace Run

variable {α β : Type} {context : Context}

/-- A step gives up because requests nest too deeply, or it does what the other step does. -/
def Below (step other : RunM α) : Prop :=
  ∀ context, (step context).1 = .error .nesting ∨ step context = other context

namespace Below

variable {step other : RunM α} {next next' : α → RunM β}

theorem refl (step : RunM α) : Below step step := fun _ => .inr rfl

theorem bind (h : Below step other) (hnext : ∀ value, Below (next value) (next' value)) :
    Below (step >>= next) (other >>= next') := by
  intro context
  rw [bind_apply, bind_apply]
  rcases h context with hdeep | hsame
  · cases hrun : step context with
    | mk outcome after =>
      rw [hrun] at hdeep
      cases hdeep
      exact .inl rfl
  · rw [← hsame]
    cases step context with
    | mk outcome after =>
      cases outcome with
      | error error => exact .inr rfl
      | ok value => exact hnext value after

theorem map (f : α → β) (h : Below step other) : Below (f <$> step) (f <$> other) := by
  rw [map_eq_pure_bind, map_eq_pure_bind]
  exact h.bind fun value => .refl (pure (f value))

theorem trans {third : RunM α} (h : Below step other) (h' : Below other third) : Below step third := by
  intro context
  rcases h context with hdeep | hsame
  · exact .inl hdeep
  · rw [hsame]
    exact h' context

end Below

end Run

/-- Every answer is what the other answers have, or that requests nest too deeply. -/
structure Answers.Below (answers other : Answers) : Prop where
  statements : ∀ text, Run.Below (answers.statements text) (other.statements text)
  echoes : answers.echoes = other.echoes
  render : ∀ text, answers.render text = .error .nesting ∨ answers.render text = other.render text

variable {answers other : Answers}

theorem Answers.Below.refl (answers : Answers) : answers.Below answers :=
  ⟨fun _ => .refl _, rfl, fun _ => .inr rfl⟩

theorem Answers.Below.trans {third : Answers} (h : answers.Below other) (h' : other.Below third) :
    answers.Below third := by
  refine ⟨fun text => (h.statements text).trans (h'.statements text), h.echoes.trans h'.echoes, fun text => ?_⟩
  rcases h.render text with hdeep | hsame
  · exact .inl hdeep
  · rw [hsame]
    exact h'.render text

/-- What an action is not told cannot make it go on in another way. -/
theorem Action.run_below {α : Type} {known : List Text} (h : answers.Below other) (action : Action α) :
    Run.Below (action.run answers known) (action.run other known) := by
  induction action with
  | done | fail => exact .refl _
  | pushFooter line next ih => exact fun context => ih _
  | readFooter next ih | readOffset next ih | readNames next ih => exact fun context => ih _ context
  | statements text next ih =>
    intro context
    rw [run_statements, run_statements]
    rcases h.statements text context with hdeep | hsame
    · rw [if_pos (Answers.tooDeep_iff.2 hdeep)]
      exact .inl rfl
    · rw [← hsame]
      split
      case isTrue => exact .inl rfl
      case isFalse => exact ih _ _
  | echoes text next ih =>
    intro context
    change ((next (answers.echoes text context.offset)).run answers known context).1 = _ ∨
      (next (answers.echoes text context.offset)).run answers known context =
        (next (other.echoes text context.offset)).run other known context
    rw [← h.echoes]
    exact ih _ context
  | render text next ih =>
    intro context
    rw [run_render, run_render]
    rcases h.render text with hdeep | hsame
    · rw [if_pos (Answers.tooDeep_iff.2 hdeep)]
      exact .inl rfl
    · rw [← hsame]
      split
      case isTrue => exact .inl rfl
      case isFalse => exact ih _ context

namespace Registry

variable (registry : Registry)

theorem carryOutTag_below (h : answers.Below other) (start : Nat) (tag : DirectiveTag) :
    Run.Below (registry.carryOutTag answers start tag) (registry.carryOutTag other start tag) := by
  unfold carryOutTag
  split
  · exact .refl _
  · dsimp only
    split
    · exact .refl _
    · exact (Action.run_below h _).bind fun _ => .refl _
    · exact (Action.run_below h _).bind fun _ => .refl _

theorem carryOut_below (h : answers.Below other) (offset : Nat) (parts : List (Text × DirectiveTag)) (last : Text) :
    Run.Below (registry.carryOut answers offset parts last) (registry.carryOut other offset parts last) := by
  induction parts generalizing offset with
  | nil => exact .refl _
  | cons part parts ih =>
    obtain ⟨before, tag⟩ := part
    unfold carryOut
    exact (registry.carryOutTag_below h _ tag).bind fun here => (ih _).bind fun later => .refl _

end Registry

namespace Transpiler

variable (transpiler : Transpiler)

theorem scan_below (h : answers.Below other) (text : Text) :
    Run.Below (transpiler.scan answers text) (transpiler.scan other text) :=
  Run.Below.bind (.refl _) fun context => transpiler.directives.carryOut_below h context.offset _ _

theorem applyHooks_below (h : answers.Below other) (text : Text) :
    Run.Below (transpiler.applyHooks answers text) (transpiler.applyHooks other text) := by
  unfold applyHooks
  induction transpiler.hooks generalizing text with
  | nil => exact .refl _
  | cons hook hooks ih =>
    rw [List.foldlM_cons, List.foldlM_cons]
    exact (Action.run_below h _).bind ih

theorem renderMarkup_below (h : answers.Below other) (text : Text) :
    Run.Below (transpiler.renderMarkup answers text) (transpiler.renderMarkup other text) := by
  rw [renderMarkup_eq, renderMarkup_eq]
  refine .bind ?_ fun markup => (transpiler.scan_below h markup).bind fun pieces => .refl _
  exact Run.Below.bind (.refl _) fun context => Run.Below.bind (.refl _) fun kept => transpiler.applyHooks_below h kept

theorem renderSpans_below (h : answers.Below other) (spans : List Span) :
    Run.Below (transpiler.renderSpans answers spans) (transpiler.renderSpans other spans) := by
  induction spans with
  | nil => exact .refl _
  | cons span spans ih =>
    intro context
    obtain ⟨kind, text, offset⟩ := span
    cases kind with
    | native =>
      rw [renderSpans_native, renderSpans_native]
      exact ih.bind (fun later => .refl _) context
    | markup =>
      rw [renderSpans_markup, renderSpans_markup]
      exact (transpiler.renderMarkup_below h text).bind (fun here => ih.bind fun later => .refl _) _

theorem renderWith_below (h : answers.Below other) (source : Text) :
    transpiler.renderWith answers source = .error .nesting ∨
      transpiler.renderWith answers source = transpiler.renderWith other source := by
  rw [renderWith_eq, renderWith_eq]
  rcases transpiler.renderSpans_below h (Span.ofText source) .start with hdeep | hsame
  · rw [hdeep]
    exact .inl rfl
  · rw [hsame]
    exact .inr rfl

/-- The answers for less nesting are below those for more. -/
theorem answersAt_below {depth deeper : Nat} (hle : depth ≤ deeper) :
    (transpiler.answersAt depth).Below (transpiler.answersAt deeper) := by
  have step : ∀ depth, (transpiler.answersAt depth).Below (transpiler.answersAt (depth + 1)) := by
    intro depth
    induction depth with
    | zero => exact ⟨fun _ _ => .inl rfl, rfl, fun _ => .inl rfl⟩
    | succ depth ih =>
      exact ⟨fun text => (transpiler.scan_below ih text).map Piece.joined, rfl, transpiler.renderWith_below ih⟩
  induction hle with
  | refl => exact .refl _
  | step _ ih => exact ih.trans (step _)

/-- Whatever the limit on nesting, a template is rewritten as it always is, unless one of the two runs gives
    up. -/
theorem renderWith_answersAt_eq_render {source : Text} (depth : Nat)
    (h : transpiler.renderWith (transpiler.answersAt depth) source ≠ .error .nesting)
    (hrender : transpiler.render source ≠ .error .nesting) :
    transpiler.renderWith (transpiler.answersAt depth) source = transpiler.render source := by
  rcases Nat.le_total depth (nestingLimit source) with hle | hle
  · exact (transpiler.renderWith_below (transpiler.answersAt_below hle) source).resolve_left h
  · exact ((transpiler.renderWith_below (transpiler.answersAt_below hle) source).resolve_left hrender).symm

end Transpiler

end Template
