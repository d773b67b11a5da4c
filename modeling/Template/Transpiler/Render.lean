import Template.Directive.Tag
import Template.Transpiler.Basic

/-! # Rendering templates

A template is cut into spans. Native code is copied. Markup loses its comments, passes through
the hooks, has its directives carried out, and then its echo tags rewritten. What directives
and hooks leave for the footer follows the document, newest first.

Directives and hooks may ask for further text to be rewritten while they run. Such requests
nest, and a run answers them down to a depth. A program nests its calls as long as it has stack
for them; what the depth stands for here is that stack, and where requests go deeper the run
ends. Which depth is taken decides nothing else (`renderWith_answersAt_eq_render`).
-/

namespace Template

namespace Registry

/-- What stands in the place of a directive tag at a byte position: the output of a known
    directive, and otherwise the text of the tag, without its escape marker. -/
def carryOutTag (registry : Registry) (answers : Answers) (start : Nat) (tag : DirectiveTag) :
    RunM (List Piece) :=
  match if tag.escaped then none else registry.find? tag.name with
  | none =>
    let start := if tag.escaped then start + escapeMarker.utf8Size else start
    pure (Piece.ofMarkup tag.unescaped start)
  | some handler =>
    let call (argument : Option Text) := (handler argument).run answers registry.names
    match tag.argument with
    | .unclosed => throw (.unterminatedTag .directive start)
    | .given text => do
      let output ← call (some text)
      pure [.output output]
    | .absent => do
      let output ← call none
      pure [.output (output ++ tag.spacing)]

/-- Carries out the directive tags of a text from left to right, the text around them as
    markup in its place. -/
def carryOut (registry : Registry) (answers : Answers) (offset : Nat) :
    List (Text × DirectiveTag) → (last : Text) → RunM (List Piece)
  | [], last => pure (Piece.ofMarkup last offset)
  | (before, tag) :: parts, last => do
    let start := offset + Text.byteLength before
    let here ← registry.carryOutTag answers start tag
    let later ← registry.carryOut answers (start + Text.byteLength tag.source) parts last
    pure (Piece.ofMarkup before offset ++ here ++ later)

end Registry

namespace Transpiler

/-- The pieces of a text with its directives carried out. -/
def scan (transpiler : Transpiler) (answers : Answers) (text : Text) : RunM (List Piece) := do
  let offset := (← get).offset
  let (parts, last) := DirectiveTag.split text
  transpiler.directives.carryOut answers offset parts last

/-- The text after every hook, each given what the one before it made. -/
def applyHooks (transpiler : Transpiler) (answers : Answers) (text : Text) : RunM Text :=
  transpiler.hooks.foldlM
    (fun text hook => (hook text).run answers transpiler.directives.names) text

/-- Markup rewritten: comments, hooks, directives, then echo tags. -/
def renderMarkup (transpiler : Transpiler) (answers : Answers) (text : Text) : RunM Text := do
  let offset := (← get).offset
  let text ← liftExcept (transpiler.comments.stripComments offset text)
  let text ← transpiler.applyHooks answers text
  let pieces ← transpiler.scan answers text
  liftExcept (transpiler.echoes.transpilePieces pieces)
where
  /-- An outcome as a step that changes nothing. -/
  liftExcept {α : Type} (outcome : Except TranspileError α) : RunM α := ExceptT.mk (pure outcome)

def renderSpans (transpiler : Transpiler) (answers : Answers) : List Span → RunM Text
  | [] => pure []
  | span :: spans => do
    let here ←
      if span.isMarkup then do
        modify fun context => { context with offset := span.offset }
        transpiler.renderMarkup answers span.text
      else pure span.text
    let later ← transpiler.renderSpans answers spans
    pure (here ++ later)

/-- A document with the footer after it: without a footer it stands alone, and otherwise it
    loses the line feeds at its start. -/
def withFooter (document : Text) (footer : List Text) : Text :=
  if footer = [] then document
  else document.dropWhile (· = '\n') ++ ['\n'] ++ Text.join ['\n'] footer.reverse

/-- A template rewritten, with the given answers for what its directives ask. -/
def renderWith (transpiler : Transpiler) (answers : Answers) (source : Text) :
    Except TranspileError Text :=
  let (outcome, context) := (transpiler.renderSpans answers (Span.ofText source)).run .start
  outcome.map fun document => withFooter document context.footer

/-- The answers for requests that may nest `depth` more times. -/
def answersAt (transpiler : Transpiler) : (depth : Nat) → Answers
  | 0 => {
    statements := fun _ => throw .nesting
    echoes := transpiler.echoes.transpile
    render := fun _ => .error .nesting }
  | depth + 1 => {
    statements := fun text => Piece.joined <$> transpiler.scan (transpiler.answersAt depth) text
    echoes := transpiler.echoes.transpile
    render := fun text => transpiler.renderWith (transpiler.answersAt depth) text }

/-- How deeply requests may nest while a template is rewritten: a depth that is out of reach in
    practice. A request for a part of an argument is shorter by the argument's parentheses, so half
    the length of the markup is enough for those, however the template is written; the rest is for
    text that directives and hooks bring in. -/
def nestingLimit (source : Text) : Nat :=
  Text.byteLength (((Span.ofText source).filter Span.isMarkup).flatMap Span.text) / 2 + 1000

def render (transpiler : Transpiler) (source : Text) : Except TranspileError Text :=
  transpiler.renderWith (transpiler.answersAt (nestingLimit source)) source

end Transpiler

end Template
