import Template.Proofs.Run
import Template.Transpiler.FileRender

/-! # Rewriting that uses no files

A transpiler whose directives and hooks work on text alone is one of those that may use files. Taken as
such, over whatever files, it rewrites every text as before and leaves the files alone; so it is the same
compiler.
-/

namespace Template

variable {m : Type → Type} [Monad m] [LawfulMonad m] {α β : Type}

/-- A step over files comes to what a step of a run does, and leaves the files alone. -/
def FileRunM.Lifts (step : FileRunM m α) (plain : RunM α) : Prop :=
  ∀ context, step context = pure (plain context)

namespace FileRunM.Lifts

variable {step : FileRunM m α} {plain : RunM α} {next : α → FileRunM m β} {plainNext : α → RunM β}

omit [LawfulMonad m] in
theorem outcome (outcome : Except TranspileError α) :
    Lifts (m := m) (FileTranspiler.liftExcept outcome) (Transpiler.renderMarkup.liftExcept outcome) := fun _ => rfl

omit [LawfulMonad m] in
theorem pure (value : α) : Lifts (Pure.pure value : FileRunM m α) (Pure.pure value) := fun _ => rfl

theorem bind (h : Lifts step plain) (hnext : ∀ value, Lifts (next value) (plainNext value)) :
    Lifts (step >>= next) (plain >>= plainNext) := by
  intro context
  change (step context >>= fun (outcome, after) => ExceptT.bindCont next outcome after) = _
  rw [h context, pure_bind, Run.bind_apply]
  cases plain context with
  | mk outcome after =>
    cases outcome with
    | error error => rfl
    | ok value => exact hnext value after

theorem get : Lifts (get : FileRunM m Context) (get : RunM Context) := by
  intro context
  exact pure_bind (context, context) fun (value, after) =>
    (Pure.pure (.ok value, after) : m (Except TranspileError Context × Context))

theorem modify (f : Context → Context) :
    Lifts (modify f : FileRunM m PUnit) (modify f : RunM PUnit) := by
  intro context
  exact pure_bind (PUnit.unit, f context) fun (value, after) =>
    (Pure.pure (.ok value, after) : m (Except TranspileError PUnit × Context))

theorem map (f : α → β) (h : Lifts step plain) : Lifts (f <$> step) (f <$> plain) := by
  rw [map_eq_pure_bind, map_eq_pure_bind]
  exact h.bind fun value => .pure (f value)

end FileRunM.Lifts

/-- Answers over files that are those of a run, and leave the files alone. -/
structure FileAnswers.Lifts (answers : FileAnswers m) (plain : Answers) : Prop where
  statements : ∀ text, (answers.statements text).Lifts (plain.statements text)
  echoes : answers.echoes = plain.echoes
  rewrite : ∀ text, answers.compiler.rewrite text = ExceptT.mk (pure (plain.render text))

variable [Files m] {answers : FileAnswers m} {plain : Answers}

theorem FileAction.lifts_overFiles {known : List Text} (h : answers.Lifts plain) (action : Action α) :
    (action.overFiles.run answers known).Lifts (action.run plain known) := by
  induction action with
  | done | fail => exact fun _ => rfl
  | pushFooter line next ih => exact fun context => ih _
  | readFooter next ih | readOffset next ih | readNames next ih => exact fun context => ih _ context
  | statements text next ih =>
    intro context
    change (answers.statements text context >>= fun reply =>
      if Answers.tooDeep reply.1 then pure (.error .nesting, reply.2)
      else (next reply.1).overFiles.run answers known reply.2) = _
    rw [h.statements text context, pure_bind, Action.run_statements]
    split
    case isTrue => rfl
    case isFalse => exact ih _ _
  | echoes text next ih =>
    intro context
    change (next (answers.echoes text context.offset)).overFiles.run answers known context = _
    rw [h.echoes]
    exact ih _ context
  | render text next ih =>
    intro context
    change ((answers.compiler.rewrite text).run >>= fun answer =>
      if Answers.tooDeep answer then pure (.error .nesting, context)
      else (next answer).overFiles.run answers known context) = _
    rw [h.rewrite, ExceptT.run_mk, pure_bind, Action.run_render]
    split
    case isTrue => rfl
    case isFalse => exact ih _ context

namespace FileTranspiler

variable (transpiler : Transpiler)

theorem names_overFiles : transpiler.overFiles.names = transpiler.directives.names :=
  congrArg Text.sort (transpiler.directives.table.keys_map _)

theorem carryOutTag_overFiles (h : answers.Lifts plain) (start : Nat) (tag : DirectiveTag) :
    (transpiler.overFiles.carryOutTag answers start tag).Lifts
      (transpiler.directives.carryOutTag plain start tag) := by
  have hfind : transpiler.overFiles.directives.find? tag.name =
      (transpiler.directives.find? tag.name).map fun handler argument => (handler argument).overFiles :=
    transpiler.directives.table.find?_map _ tag.name
  unfold carryOutTag Registry.carryOutTag
  rw [hfind, names_overFiles]
  cases tag.escaped with
  | true => exact .pure _
  | false =>
    rw [if_neg Bool.false_ne_true, if_neg Bool.false_ne_true]
    cases transpiler.directives.find? tag.name with
    | none => exact .pure _
    | some handler =>
      dsimp only [Option.map_some]
      cases tag.argument with
      | unclosed => exact fun _ => rfl
      | given text => exact (FileAction.lifts_overFiles h _).bind fun output => .pure _
      | absent => exact (FileAction.lifts_overFiles h _).bind fun output => .pure _

theorem carryOut_overFiles (h : answers.Lifts plain) (offset : Nat) (parts : List (Text × DirectiveTag))
    (last : Text) :
    (transpiler.overFiles.carryOut answers offset parts last).Lifts
      (transpiler.directives.carryOut plain offset parts last) := by
  induction parts generalizing offset with
  | nil => exact .pure _
  | cons part parts ih =>
    obtain ⟨before, tag⟩ := part
    unfold carryOut Registry.carryOut
    exact (carryOutTag_overFiles transpiler h _ tag).bind fun here => (ih _).bind fun later => .pure _

theorem scan_overFiles (h : answers.Lifts plain) (text : Text) :
    (transpiler.overFiles.scan answers text).Lifts (transpiler.scan plain text) := by
  exact FileRunM.Lifts.get.bind fun context => carryOut_overFiles transpiler h context.offset _ _

theorem applyHooks_overFiles (h : answers.Lifts plain) (text : Text) :
    (transpiler.overFiles.applyHooks answers text).Lifts (transpiler.applyHooks plain text) := by
  unfold applyHooks Transpiler.applyHooks
  rw [names_overFiles]
  have hhooks : transpiler.overFiles.hooks = transpiler.hooks.map fun hook text => (hook text).overFiles := rfl
  rw [hhooks, List.foldlM_map]
  induction transpiler.hooks generalizing text with
  | nil => exact .pure _
  | cons hook hooks ih =>
    rw [List.foldlM_cons, List.foldlM_cons]
    exact (FileAction.lifts_overFiles h _).bind ih

theorem renderMarkup_overFiles (h : answers.Lifts plain) (text : Text) :
    (transpiler.overFiles.renderMarkup answers text).Lifts (transpiler.renderMarkup plain text) := by
  refine FileRunM.Lifts.get.bind fun context => (FileRunM.Lifts.outcome _).bind fun kept => ?_
  exact (applyHooks_overFiles transpiler h kept).bind fun markup =>
    (scan_overFiles transpiler h markup).bind fun pieces => .outcome _

theorem renderSpans_overFiles (h : answers.Lifts plain) (spans : List Span) :
    (transpiler.overFiles.renderSpans answers spans).Lifts (transpiler.renderSpans plain spans) := by
  induction spans with
  | nil => exact .pure _
  | cons span spans ih =>
    obtain ⟨kind, text, offset⟩ := span
    cases kind with
    | native => exact (FileRunM.Lifts.pure text).bind fun here => ih.bind fun later => .pure _
    | markup =>
      refine (FileRunM.Lifts.modify fun context => { context with offset }).bind fun _ => ?_
      exact (renderMarkup_overFiles transpiler h text).bind fun here => ih.bind fun later => .pure _

theorem renderWith_overFiles (h : answers.Lifts plain) (source : Text) :
    transpiler.overFiles.renderWith answers source = ExceptT.mk (pure (transpiler.renderWith plain source)) := by
  change ExceptT.mk (transpiler.overFiles.renderSpans answers (Span.ofText source) .start >>= _) = _
  rw [renderSpans_overFiles transpiler h, pure_bind]
  rfl

theorem answersAt_overFiles (depth : Nat) :
    (transpiler.overFiles.answersAt depth : FileAnswers m).Lifts (transpiler.answersAt depth) := by
  induction depth with
  | zero => exact ⟨fun _ _ => rfl, rfl, fun _ => rfl⟩
  | succ depth ih =>
    exact ⟨fun text => (scan_overFiles transpiler ih text).map Piece.joined, rfl, renderWith_overFiles transpiler ih⟩

/-- A transpiler that uses no files is the same compiler among those that may use files. -/
theorem compiler_overFiles :
    (transpiler.overFiles.compiler Transpiler.nestingLimit : Compiler m) = transpiler.compiler :=
  congrArg (Compiler.mk transpiler.cache)
    (funext fun source => renderWith_overFiles transpiler (answersAt_overFiles transpiler _) source)

end FileTranspiler

end Template
