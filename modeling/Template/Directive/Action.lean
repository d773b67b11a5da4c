import Template.Error

/-! # Actions

What a directive or a hook does is an action: a tree of requests to the run it takes part in,
with the code it produces at the leaves. A run answers the requests one by one; the state it
keeps for them is the footer and the place of the span being rewritten.

An action works on text alone. One that also has template files compiled is a `FileAction`.
-/

namespace Template

/-- What a directive or a hook does before it gives a value. -/
inductive Action (α : Type) where
  | done (value : α)
  | fail (error : TranspileError)
  /-- Adds a line to the footer. -/
  | pushFooter (line : Text) (next : Action α)
  /-- Asks for the footer so far, oldest line first. -/
  | readFooter (next : List Text → Action α)
  /-- Asks for the byte position of the span being rewritten. -/
  | readOffset (next : Nat → Action α)
  /-- Asks for the names of the known directives. -/
  | readNames (next : List Text → Action α)
  /-- Asks for a text with its directives carried out. -/
  | statements (text : Text) (next : Except TranspileError Text → Action α)
  /-- Asks for a text with its echo tags rewritten. -/
  | echoes (text : Text) (next : Except TranspileError Text → Action α)
  /-- Asks for a text rewritten as a template of its own. -/
  | render (text : Text) (next : Except TranspileError Text → Action α)

namespace Action

variable {α β : Type}

def bind : Action α → (α → Action β) → Action β
  | done value, f => f value
  | fail error, _ => fail error
  | pushFooter line next, f => pushFooter line (next.bind f)
  | readFooter next, f => readFooter fun footer => (next footer).bind f
  | readOffset next, f => readOffset fun offset => (next offset).bind f
  | readNames next, f => readNames fun names => (next names).bind f
  | statements text next, f => statements text fun answer => (next answer).bind f
  | echoes text next, f => echoes text fun answer => (next answer).bind f
  | render text next, f => render text fun answer => (next answer).bind f

instance : Monad Action where
  pure := done
  bind := bind

@[simp] theorem bind_done (x : Action α) : x.bind done = x := by
  induction x with
  | done | fail => rfl
  | pushFooter line next ih => simp [bind, ih]
  | readFooter next ih | readOffset next ih | readNames next ih => simp [bind, ih]
  | statements text next ih | echoes text next ih | render text next ih => simp [bind, ih]

/-- The value of an answer, or its failure as one's own. -/
def ofExcept : Except TranspileError α → Action α
  | .ok value => done value
  | .error error => fail error

/-- Adds a line to the footer. -/
def addFooter (line : Text) : Action Unit := pushFooter line (done ())

/-- The footer so far, oldest line first. -/
def footer : Action (List Text) := readFooter done

/-- The byte position of the span being rewritten. -/
def offset : Action Nat := readOffset done

/-- The names of the known directives. -/
def names : Action (List Text) := readNames done

/-- The text with its directives carried out. -/
def transpileStatements (text : Text) : Action Text := statements text ofExcept

/-- The text with its echo tags rewritten. -/
def transpileEchoes (text : Text) : Action Text := echoes text ofExcept

/-- The text rewritten as a template of its own. -/
def renderText (text : Text) : Action Text := render text ofExcept

end Action

/-- The state of a run that actions see. -/
structure Context where
  /-- Lines for the end of the output, oldest first. -/
  footer : List Text
  /-- Byte position of the span being rewritten. -/
  offset : Nat
  deriving DecidableEq, Repr

/-- The state before the first span. -/
def Context.start : Context := ⟨[], 0⟩

/-- A step of a run: it may change the state, also when it fails. -/
abbrev RunM := ExceptT TranspileError (StateM Context)

/-- How a run answers the requests for rewritten text. -/
structure Answers where
  /-- Text with its directives carried out. -/
  statements : Text → RunM Text
  /-- Text at a byte position with its echo tags rewritten. -/
  echoes : Text → Nat → Except TranspileError Text
  /-- Text rewritten as a template of its own. -/
  render : Text → Except TranspileError Text

/-- Whether an answer is that requests nest more deeply than the run allows. -/
def Answers.tooDeep {α : Type} : Except TranspileError α → Bool
  | .error .nesting => true
  | _ => false

theorem Answers.tooDeep_iff {α : Type} {answer : Except TranspileError α} :
    tooDeep answer = true ↔ answer = .error .nesting := by
  constructor
  · intro h
    cases answer with
    | ok value => cases h
    | error error =>
      cases error with
      | nesting => rfl
      | _ => cases h
  · rintro rfl
    rfl

/-- Carries an action out, with the names of the known directives. An action is told of every answer
    but one: that requests nest too deeply ends the run, and no action can go on after it. -/
def Action.run {α : Type} (answers : Answers) (known : List Text) : Action α → RunM α
  | .done value => pure value
  | .fail error => throw error
  | .pushFooter line next => fun context =>
    next.run answers known { context with footer := context.footer ++ [line] }
  | .readFooter next => fun context => (next context.footer).run answers known context
  | .readOffset next => fun context => (next context.offset).run answers known context
  | .readNames next => (next known).run answers known
  | .statements text next => fun context =>
    let (answer, context) := answers.statements text context
    if Answers.tooDeep answer then (.error .nesting, context)
    else (next answer).run answers known context
  | .echoes text next => fun context =>
    (next (answers.echoes text context.offset)).run answers known context
  | .render text next => fun context =>
    if Answers.tooDeep (answers.render text) then (.error .nesting, context)
    else (next (answers.render text)).run answers known context

end Template
