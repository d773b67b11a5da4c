import Template.Compiler
import Template.Directive.Action

/-! # Actions over files

A directive or a hook holds the transpiler that it takes part in. So it may also ask where the compiled form
of a template file is, ask whether the file has to be compiled, and have it compiled there and then. Such an
action is carried out over files, and what it has done to them stays done when it fails later on.
-/

namespace Template

/-- What a directive or a hook does before it gives a value, if it may use files. -/
inductive FileAction (α : Type) where
  | done (value : α)
  | fail (error : TranspileError)
  /-- Adds a line to the footer. -/
  | pushFooter (line : Text) (next : FileAction α)
  /-- Asks for the footer so far, oldest line first. -/
  | readFooter (next : List Text → FileAction α)
  /-- Asks for the byte position of the span being rewritten. -/
  | readOffset (next : Nat → FileAction α)
  /-- Asks for the names of the known directives. -/
  | readNames (next : List Text → FileAction α)
  /-- Asks for a text with its directives carried out. -/
  | statements (text : Text) (next : Except TranspileError Text → FileAction α)
  /-- Asks for a text with its echo tags rewritten. -/
  | echoes (text : Text) (next : Except TranspileError Text → FileAction α)
  /-- Asks for a text rewritten as a template of its own. -/
  | render (text : Text) (next : Except TranspileError Text → FileAction α)
  /-- Asks for the place of the compiled form of a template file. -/
  | compiledPath (source : Path) (next : Option Path → FileAction α)
  /-- Asks whether a template file has to be compiled. -/
  | isStale (source : Path) (next : Except TranspileError Bool → FileAction α)
  /-- Has a template file compiled. -/
  | compile (source : Path) (next : Except TranspileError (Option Path) → FileAction α)
  /-- Has a template file compiled if it has to be. -/
  | compileIfStale (source : Path) (next : Except TranspileError Bool → FileAction α)

/-- An action that works on text alone. -/
def Action.overFiles {α : Type} : Action α → FileAction α
  | done value => .done value
  | fail error => .fail error
  | pushFooter line next => .pushFooter line next.overFiles
  | readFooter next => .readFooter fun footer => (next footer).overFiles
  | readOffset next => .readOffset fun offset => (next offset).overFiles
  | readNames next => .readNames fun names => (next names).overFiles
  | statements text next => .statements text fun answer => (next answer).overFiles
  | echoes text next => .echoes text fun answer => (next answer).overFiles
  | render text next => .render text fun answer => (next answer).overFiles

/-- A step of a run over files: it may change the state and the files, also when it fails. -/
abbrev FileRunM (m : Type → Type) := ExceptT TranspileError (StateT Context m)

/-- How a run over files answers requests: texts are rewritten as templates of their own, and template files
    compiled, by one compiler. -/
structure FileAnswers (m : Type → Type) where
  /-- Text with its directives carried out. -/
  statements : Text → FileRunM m Text
  /-- Text at a byte position with its echo tags rewritten. -/
  echoes : Text → Nat → Except TranspileError Text
  compiler : Compiler m

namespace FileAction

variable {m : Type → Type} [Monad m] {α β : Type}

/-- Goes on with the answer of a step over files. As without files, an action is told of every answer but
    that requests nest too deeply. -/
def ask (step : FilesT m β) (next : Except TranspileError β → FileRunM m α) : FileRunM m α := fun context => do
  let answer ← step.run
  if Answers.tooDeep answer then pure (.error .nesting, context) else next answer context

/-- Carries an action out, with the names of the known directives. -/
def run [Files m] (answers : FileAnswers m) (known : List Text) : FileAction α → FileRunM m α
  | done value => pure value
  | fail error => throw error
  | pushFooter line next => fun context =>
    next.run answers known { context with footer := context.footer ++ [line] }
  | readFooter next => fun context => (next context.footer).run answers known context
  | readOffset next => fun context => (next context.offset).run answers known context
  | readNames next => (next known).run answers known
  | statements text next => fun context => do
    let (answer, context) ← answers.statements text context
    if Answers.tooDeep answer then pure (.error .nesting, context)
    else (next answer).run answers known context
  | echoes text next => fun context =>
    (next (answers.echoes text context.offset)).run answers known context
  | render text next => ask (answers.compiler.rewrite text) fun answer => (next answer).run answers known
  | compiledPath source next => (next (answers.compiler.compiledPath? source)).run answers known
  | isStale source next => ask (answers.compiler.isStale source) fun answer => (next answer).run answers known
  | compile source next => ask (answers.compiler.compile source) fun answer => (next answer).run answers known
  | compileIfStale source next =>
    ask (answers.compiler.compileIfStale source) fun answer => (next answer).run answers known

end FileAction

end Template
