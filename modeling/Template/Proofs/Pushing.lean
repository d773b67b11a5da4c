import Template.Proofs.DirectiveScan

/-! # Lines for the footer

Directives and hooks that push lines for the footer, but neither look at it nor start a template of
their own, cannot tell that there is one. What they push is told apart from the run by a reading in
which a line can be pushed and never seen: the lines of a step come before those of the next one.
A run with pushes ends as this reading does, with its lines behind those that were there before, and
the run without pushes ends in the same way with no lines.
-/

namespace Template

/-- How a step ends that may push lines for the footer and see none, and these lines, oldest first. -/
structure Pushing (α : Type) where
  lines : List Text
  outcome : Except TranspileError α

namespace Pushing

variable {α β : Type}

/-- A step that pushes nothing. -/
def ofOutcome (outcome : Except TranspileError α) : Pushing α := ⟨[], outcome⟩

/-- One step after another: the lines of the first come before those of the next. -/
def andThen (first : Pushing α) (next : α → Pushing β) : Pushing β :=
  match first.outcome with
  | .error error => ⟨first.lines, .error error⟩
  | .ok value => ⟨first.lines ++ (next value).lines, (next value).outcome⟩

instance : Monad Pushing where
  pure value := ofOutcome (.ok value)
  bind := andThen

end Pushing

namespace Action

variable {α : Type}

/-- The action never looks at the footer and never starts a template of its own, whatever it is
    answered. -/
def IgnoresFooter : Action α → Prop
  | done _ | fail _ => True
  | pushFooter _ next => next.IgnoresFooter
  | readOffset next => ∀ offset, (next offset).IgnoresFooter
  | readNames next => ∀ names, (next names).IgnoresFooter
  | statements _ next | echoes _ next => ∀ answer, (next answer).IgnoresFooter
  | readFooter _ | render _ _ => False

/-- The action with every push dropped. -/
def withoutPushes : Action α → Action α
  | done value => done value
  | fail error => fail error
  | pushFooter _ next => next.withoutPushes
  | readFooter next => readFooter fun footer => (next footer).withoutPushes
  | readOffset next => readOffset fun offset => (next offset).withoutPushes
  | readNames next => readNames fun names => (next names).withoutPushes
  | statements text next => statements text fun answer => (next answer).withoutPushes
  | echoes text next => echoes text fun answer => (next answer).withoutPushes
  | render text next => render text fun answer => (next answer).withoutPushes

/-- What an action at a byte position pushes, if it ignores the footer. The lines of a text that it has
    its directives carried out for are pushed while it waits for the answer. -/
def pushing (nested : Text → Pushing Text) (echoed : Text → Except TranspileError Text) (known : List Text)
    (offset : Nat) : Action α → Pushing α
  | done value => .ofOutcome (.ok value)
  | fail error => .ofOutcome (.error error)
  | pushFooter line next =>
    let rest := next.pushing nested echoed known offset
    { rest with lines := line :: rest.lines }
  | readOffset next => (next offset).pushing nested echoed known offset
  | readNames next => (next known).pushing nested echoed known offset
  | statements text next =>
    if Answers.tooDeep (nested text).outcome then ⟨(nested text).lines, .error .nesting⟩
    else
      let rest := (next (nested text).outcome).pushing nested echoed known offset
      { rest with lines := (nested text).lines ++ rest.lines }
  | echoes text next => (next (echoed text)).pushing nested echoed known offset
  | readFooter _ | render _ _ => .ofOutcome (.error .nesting)

end Action

namespace Registry

/-- The registry with every push of its directives dropped. -/
def withoutPushes (registry : Registry) : Registry :=
  ⟨registry.table.map fun handler argument => (handler argument).withoutPushes⟩

/-- What a tag at a byte position pushes. -/
def pushTag (registry : Registry) (nested : Text → Pushing Text) (echoed : Text → Except TranspileError Text)
    (offset start : Nat) (tag : DirectiveTag) : Pushing (List Piece) :=
  match registry.handler? tag with
  | none => pure (tag.inPlace start none)
  | some handler =>
    if tag.argument = .unclosed then .ofOutcome (.error (.unterminatedTag .directive start))
    else do
      let output ← (handler tag.argument.text?).pushing nested echoed registry.names offset
      pure (tag.inPlace start (some output))

/-- What the tags of a text push, from left to right. -/
def pushTags (registry : Registry) (nested : Text → Pushing Text) (echoed : Text → Except TranspileError Text)
    (offset : Nat) : (start : Nat) → List (Text × DirectiveTag) → (last : Text) → Pushing (List Piece)
  | start, [], last => pure (Piece.ofMarkup last start)
  | start, (before, tag) :: parts, last => do
    let place := start + Text.byteLength before
    let here ← registry.pushTag nested echoed offset place tag
    let later ← registry.pushTags nested echoed offset (place + Text.byteLength tag.source) parts last
    pure (Piece.ofMarkup before start ++ here ++ later)

end Registry

namespace Transpiler

variable (transpiler : Transpiler)

/-- The transpiler with every push of its directives and hooks dropped. -/
def withoutPushes : Transpiler :=
  { transpiler with
    directives := transpiler.directives.withoutPushes
    hooks := transpiler.hooks.map fun hook text => (hook text).withoutPushes }

/-- No directive and no hook looks at the footer or starts a template of its own. -/
structure IgnoresFooter : Prop where
  directives : ∀ name handler, transpiler.directives.find? name = some handler →
    ∀ argument, (handler argument).IgnoresFooter
  hooks : ∀ hook ∈ transpiler.hooks, ∀ text, (hook text).IgnoresFooter

/-- What the directives of a text at a byte position push. -/
def pushScan (nested : Text → Pushing Text) (offset : Nat) (text : Text) : Pushing (List Piece) :=
  transpiler.directives.pushTags nested (transpiler.echoes.transpile · offset) offset offset
    (DirectiveTag.split text).1 (DirectiveTag.split text).2

/-- What a text at a byte position pushes that is asked for with its directives carried out, and
    whose directives may ask in turn. -/
def pushNested (offset : Nat) : (depth : Nat) → Text → Pushing Text
  | 0, _ => .ofOutcome (.error .nesting)
  | depth + 1, text => do
    let pieces ← transpiler.pushScan (pushNested offset depth) offset text
    pure (Piece.joined pieces)

/-- What the hooks push, in the order they are run. -/
def pushHooks (nested : Text → Pushing Text) (offset : Nat) : List Hook → Text → Pushing Text
  | [], text => pure text
  | hook :: hooks, text => do
    let text ← (hook text).pushing nested (transpiler.echoes.transpile · offset) transpiler.directives.names offset
    pushHooks nested offset hooks text

/-- What markup at a byte position pushes: its hooks before its directives. -/
def pushMarkup (depth offset : Nat) (text : Text) : Pushing Text := do
  let kept ← Pushing.ofOutcome (transpiler.comments.stripComments offset text)
  let markup ← transpiler.pushHooks (transpiler.pushNested offset depth) offset transpiler.hooks kept
  let pieces ← transpiler.pushScan (transpiler.pushNested offset depth) offset markup
  Pushing.ofOutcome (transpiler.echoes.transpilePieces pieces)

/-- What spans push, in the order of the template. -/
def pushSpans (depth : Nat) : List Span → Pushing Text
  | [] => pure []
  | span :: spans => do
    let here ← if span.isMarkup then transpiler.pushMarkup depth span.offset span.text else pure span.text
    let later ← pushSpans depth spans
    pure (here ++ later)

/-- The lines that a template pushes, oldest first. -/
def pushedLines (source : Text) : List Text :=
  (transpiler.pushSpans (nestingLimit source) (Span.ofText source)).lines

end Transpiler

/-- A step at a byte position ends as its reading does and adds the lines to the footer, and the same
    step without pushes ends so and adds nothing; neither depends on the footer before it. -/
def Pushing.Tells {α : Type} (pushing : Pushing α) (offset : Nat) (step plain : RunM α) : Prop :=
  ∀ footer, step ⟨footer, offset⟩ = (pushing.outcome, ⟨footer ++ pushing.lines, offset⟩) ∧
    plain ⟨footer, offset⟩ = (pushing.outcome, ⟨footer, offset⟩)

namespace Pushing

variable {α β : Type} {offset : Nat}

theorem Tells.outcome (outcome : Except TranspileError α) (offset : Nat) :
    (ofOutcome outcome).Tells offset (ExceptT.mk (Pure.pure outcome)) (ExceptT.mk (Pure.pure outcome)) := by
  intro footer
  constructor
  · change (outcome, Context.mk footer offset) = (outcome, Context.mk (footer ++ []) offset)
    rw [List.append_nil]
  · rfl

theorem Tells.bind {pushing : Pushing α} {step plain : RunM α} {next : α → Pushing β}
    {stepNext plainNext : α → RunM β} (h : pushing.Tells offset step plain)
    (hnext : ∀ value, (next value).Tells offset (stepNext value) (plainNext value)) :
    (pushing >>= next).Tells offset (step >>= stepNext) (plain >>= plainNext) := by
  intro footer
  obtain ⟨hstep, hplain⟩ := h footer
  obtain ⟨lines, outcome⟩ := pushing
  cases outcome with
  | error error => exact ⟨Run.bind_apply_error hstep, Run.bind_apply_error hplain⟩
  | ok value =>
    rw [Run.bind_apply_ok hstep, Run.bind_apply_ok hplain, (hnext value _).1, (hnext value _).2, List.append_assoc]
    exact ⟨rfl, rfl⟩

/-- A step, begun anywhere, ends as its reading does and adds the lines to the footer, and the same step
    without pushes ends so and adds nothing. -/
def Leaves (pushing : Pushing α) (step plain : RunM α) : Prop :=
  ∀ context, (step context).1 = pushing.outcome ∧ (step context).2.footer = context.footer ++ pushing.lines ∧
    (plain context).1 = pushing.outcome ∧ (plain context).2.footer = context.footer

theorem Leaves.pure (value : α) : (pure value : Pushing α).Leaves (pure value) (pure value) :=
  fun context => ⟨rfl, (List.append_nil context.footer).symm, rfl, rfl⟩

theorem Leaves.bind {pushing : Pushing α} {step plain : RunM α} {next : α → Pushing β}
    {stepNext plainNext : α → RunM β} (h : pushing.Leaves step plain)
    (hnext : ∀ value, (next value).Leaves (stepNext value) (plainNext value)) :
    (pushing >>= next).Leaves (step >>= stepNext) (plain >>= plainNext) := by
  intro context
  obtain ⟨hstep, hfooter, hplain, hsame⟩ := h context
  rw [Run.bind_apply, Run.bind_apply]
  obtain ⟨lines, outcome⟩ := pushing
  cases hrun : step context with
  | mk outcome' after =>
    cases hrun' : plain context with
    | mk outcome'' after' =>
      rw [hrun] at hstep hfooter
      rw [hrun'] at hplain hsame
      cases hstep
      cases hplain
      cases outcome with
      | error error => exact ⟨rfl, hfooter, rfl, hsame⟩
      | ok value =>
        obtain ⟨hvalue, hlater, -, -⟩ := hnext value after
        obtain ⟨-, -, hvalue', hsame'⟩ := hnext value after'
        refine ⟨hvalue, ?_, hvalue', hsame'.trans hsame⟩
        dsimp only at hlater hfooter
        rw [hlater, hfooter, List.append_assoc]
        rfl

/-- A step that is told at a byte position may begin anywhere if it is brought there first. -/
theorem Tells.leaves {pushing : Pushing α} {step plain : RunM α} (h : pushing.Tells offset step plain) :
    pushing.Leaves (modify (fun context => { context with offset }) >>= fun _ => step)
      (modify (fun context => { context with offset }) >>= fun _ => plain) := by
  intro context
  obtain ⟨hstep, hplain⟩ := h context.footer
  change (step ⟨context.footer, offset⟩).1 = _ ∧ (step ⟨context.footer, offset⟩).2.footer = _ ∧
    (plain ⟨context.footer, offset⟩).1 = _ ∧ (plain ⟨context.footer, offset⟩).2.footer = _
  rw [hstep, hplain]
  exact ⟨rfl, rfl, rfl, rfl⟩

theorem exists_of_bind_eq_ok {pushing : Pushing α} {next : α → Pushing β} {result : β}
    (h : (pushing >>= next).outcome = .ok result) :
    ∃ value, pushing.outcome = .ok value ∧ (next value).outcome = .ok result ∧
      (pushing >>= next).lines = pushing.lines ++ (next value).lines := by
  obtain ⟨lines, outcome⟩ := pushing
  cases outcome with
  | error error => cases h
  | ok value => exact ⟨value, rfl, h, rfl⟩

end Pushing

section

variable {α : Type} {answers plain : Answers} {nested : Text → Pushing Text}
  {echoed : Text → Except TranspileError Text} {known : List Text} {offset : Nat}

/-- The reading of an action tells what its run does, if the readings of the texts that it asks for do. -/
theorem Action.tells_run {action : Action α} (h : action.IgnoresFooter)
    (hnested : ∀ text, (nested text).Tells offset (answers.statements text) (plain.statements text))
    (hechoes : ∀ text, answers.echoes text offset = echoed text ∧ plain.echoes text offset = echoed text) :
    (action.pushing nested echoed known offset).Tells offset (action.run answers known)
      (action.withoutPushes.run plain known) := by
  induction action with
  | done value => exact .outcome (.ok value) offset
  | fail error => exact .outcome (.error error) offset
  | pushFooter line next ih =>
    intro footer
    obtain ⟨hrun, -⟩ := ih h (footer ++ [line])
    refine ⟨hrun.trans ?_, (ih h footer).2⟩
    simp only [pushing, List.append_assoc, List.singleton_append]
  | readOffset next ih => exact ih offset (h offset)
  | readNames next ih => exact ih known (h known)
  | statements text next ih =>
    intro footer
    obtain ⟨hstep, hplain⟩ := hnested text footer
    obtain ⟨hrun, -⟩ := ih _ (h (nested text).outcome) (footer ++ (nested text).lines)
    obtain ⟨-, hrun'⟩ := ih _ (h (nested text).outcome) footer
    constructor
    · simp only [run, hstep, hrun, pushing, List.append_assoc]
      split <;> rfl
    · simp only [withoutPushes, run, hplain, hrun', pushing]
      split <;> rfl
  | echoes text next ih =>
    intro footer
    obtain ⟨hstep, hplain⟩ := hechoes text
    obtain ⟨hrun, hrun'⟩ := ih (echoed text) (h _) footer
    constructor
    · simp only [run, hstep, hrun, pushing]
    · simp only [withoutPushes, run, hplain, hrun', pushing]
  | readFooter | render => exact h.elim

end

namespace Registry

variable {registry : Registry} {answers plain : Answers} {nested : Text → Pushing Text}
  {echoed : Text → Except TranspileError Text} {offset : Nat}

theorem names_withoutPushes (registry : Registry) : registry.withoutPushes.names = registry.names :=
  congrArg Text.sort (registry.table.keys_map _)

theorem find?_withoutPushes (registry : Registry) (name : Text) :
    registry.withoutPushes.find? name =
      (registry.find? name).map fun handler argument => (handler argument).withoutPushes :=
  registry.table.find?_map _ name

theorem handler?_withoutPushes (registry : Registry) (tag : DirectiveTag) :
    registry.withoutPushes.handler? tag =
      (registry.handler? tag).map fun handler argument => (handler argument).withoutPushes := by
  unfold handler?
  split
  · rfl
  · exact registry.find?_withoutPushes tag.name

section

variable (hignores : ∀ name handler, registry.find? name = some handler → ∀ argument, (handler argument).IgnoresFooter)
  (hnested : ∀ text, (nested text).Tells offset (answers.statements text) (plain.statements text))
  (hechoes : ∀ text, answers.echoes text offset = echoed text ∧ plain.echoes text offset = echoed text)

include hignores hnested hechoes

theorem tells_carryOutTag (start : Nat) (tag : DirectiveTag) :
    (registry.pushTag nested echoed offset start tag).Tells offset (registry.carryOutTag answers start tag)
      (registry.withoutPushes.carryOutTag plain start tag) := by
  unfold pushTag
  have hplain := registry.handler?_withoutPushes tag
  cases hhandler : registry.handler? tag with
  | none =>
    rw [hhandler, Option.map_none] at hplain
    rw [carryOutTag_of_none hhandler, carryOutTag_of_none hplain, ofMarkup_unescaped]
    exact .outcome _ offset
  | some handler =>
    rw [hhandler, Option.map_some] at hplain
    dsimp only
    split
    case isTrue hargument =>
      rw [carryOutTag_of_unclosed hhandler hargument, carryOutTag_of_unclosed hplain hargument]
      exact .outcome _ offset
    case isFalse hargument =>
      rw [carryOutTag_called hhandler hargument, carryOutTag_called hplain hargument, names_withoutPushes]
      have hcall := hignores tag.name handler (handler?_eq_some hhandler).2 tag.argument.text?
      exact .bind (Action.tells_run hcall hnested hechoes) fun output => .outcome _ offset

theorem tells_carryOut (start : Nat) (parts : List (Text × DirectiveTag)) (last : Text) :
    (registry.pushTags nested echoed offset start parts last).Tells offset
      (registry.carryOut answers start parts last) (registry.withoutPushes.carryOut plain start parts last) := by
  induction parts generalizing start with
  | nil => exact .outcome _ offset
  | cons part parts ih =>
    obtain ⟨before, tag⟩ := part
    refine .bind (tells_carryOutTag hignores hnested hechoes _ tag) fun here => ?_
    exact .bind (ih _) fun later => .outcome _ offset

end

end Registry

namespace Transpiler

variable {transpiler : Transpiler} {answers plain : Answers} {nested : Text → Pushing Text} {offset : Nat}

section

variable (hnested : ∀ text, (nested text).Tells offset (answers.statements text) (plain.statements text))
  (hechoes : ∀ text, answers.echoes text offset = transpiler.echoes.transpile text offset ∧
    plain.echoes text offset = transpiler.echoes.transpile text offset)

include hnested hechoes

theorem tells_scan (h : transpiler.IgnoresFooter) (text : Text) :
    (transpiler.pushScan nested offset text).Tells offset (transpiler.scan answers text)
      (transpiler.withoutPushes.scan plain text) := by
  intro footer
  exact Registry.tells_carryOut h.directives hnested hechoes offset _ _ footer

theorem tells_hooks {hooks : List Hook} (hhooks : ∀ hook ∈ hooks, ∀ text, (hook text).IgnoresFooter) (text : Text) :
    (transpiler.pushHooks nested offset hooks text).Tells offset
      (hooks.foldlM (fun text hook => (hook text).run answers transpiler.directives.names) text)
      ((hooks.map fun hook text => (hook text).withoutPushes).foldlM
        (fun text hook => (hook text).run plain transpiler.withoutPushes.directives.names) text) := by
  induction hooks generalizing text with
  | nil => exact .outcome _ offset
  | cons hook hooks ih =>
    rw [List.forall_mem_cons] at hhooks
    have hnames : transpiler.withoutPushes.directives.names = transpiler.directives.names :=
      transpiler.directives.names_withoutPushes
    rw [List.map_cons, List.foldlM_cons, List.foldlM_cons, hnames]
    rw [hnames] at ih
    exact .bind (Action.tells_run (hhooks.1 text) hnested hechoes) fun text => ih hhooks.2 text

end

theorem echoes_answersAt (transpiler : Transpiler) (offset depth : Nat) (text : Text) :
    (transpiler.answersAt depth).echoes text offset = transpiler.echoes.transpile text offset ∧
      (transpiler.withoutPushes.answersAt depth).echoes text offset = transpiler.echoes.transpile text offset := by
  rw [answersAt_echoes, answersAt_echoes]
  exact ⟨rfl, rfl⟩

theorem tells_nested (h : transpiler.IgnoresFooter) (offset depth : Nat) (text : Text) :
    (transpiler.pushNested offset depth text).Tells offset ((transpiler.answersAt depth).statements text)
      ((transpiler.withoutPushes.answersAt depth).statements text) := by
  induction depth generalizing text with
  | zero => exact .outcome _ offset
  | succ depth ih =>
    have hscan := tells_scan ih (echoes_answersAt transpiler offset depth) h text
    exact .bind hscan fun pieces => .outcome (.ok (Piece.joined pieces)) offset

/-- The steps that markup at a byte position goes through. -/
theorem renderMarkup_eq_bind (transpiler : Transpiler) (answers : Answers) (text : Text) (footer : List Text)
    (offset : Nat) :
    transpiler.renderMarkup answers text ⟨footer, offset⟩ =
      (renderMarkup.liftExcept (transpiler.comments.stripComments offset text) >>= fun kept =>
        transpiler.applyHooks answers kept >>= fun markup =>
        transpiler.scan answers markup >>= fun pieces =>
        renderMarkup.liftExcept (transpiler.echoes.transpilePieces pieces)) ⟨footer, offset⟩ := rfl

theorem tells_markup (h : transpiler.IgnoresFooter) (offset depth : Nat) (text : Text) :
    (transpiler.pushMarkup depth offset text).Tells offset
      (transpiler.renderMarkup (transpiler.answersAt depth) text)
      (transpiler.withoutPushes.renderMarkup (transpiler.withoutPushes.answersAt depth) text) := by
  have hnested := tells_nested h offset depth
  have hechoes := echoes_answersAt transpiler offset depth
  intro footer
  rw [renderMarkup_eq_bind, renderMarkup_eq_bind]
  apply Pushing.Tells.bind (.outcome (transpiler.comments.stripComments offset text) offset)
  intro kept
  apply Pushing.Tells.bind (tells_hooks hnested hechoes h.hooks kept)
  intro markup
  apply Pushing.Tells.bind (tells_scan hnested hechoes h markup)
  intro pieces
  exact .outcome (transpiler.echoes.transpilePieces pieces) offset

theorem leaves_spans (h : transpiler.IgnoresFooter) (depth : Nat) (spans : List Span) :
    (transpiler.pushSpans depth spans).Leaves (transpiler.renderSpans (transpiler.answersAt depth) spans)
      (transpiler.withoutPushes.renderSpans (transpiler.withoutPushes.answersAt depth) spans) := by
  induction spans with
  | nil => exact .pure []
  | cons span spans ih =>
    have hlater : ∀ here, (transpiler.pushSpans depth spans >>= fun later => pure (here ++ later)).Leaves
        (transpiler.renderSpans (transpiler.answersAt depth) spans >>= fun later => pure (here ++ later))
        (transpiler.withoutPushes.renderSpans (transpiler.withoutPushes.answersAt depth) spans >>= fun later =>
          pure (here ++ later)) :=
      fun here => ih.bind fun later => .pure (here ++ later)
    unfold pushSpans renderSpans
    cases span.isMarkup with
    | false => exact hlater span.text
    | true => exact (tells_markup h span.offset depth span.text).leaves.bind hlater

end Transpiler

end Template
