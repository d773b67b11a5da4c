import Template.Directive.FileAction
import Template.Transpiler.Compile

/-! # Rendering over files

A transpiler whose directives and hooks may use files rewrites a template in the same passes as any other.
Only, the rewriting is a step over files now: what one directive stores is there for the next.
-/

namespace Template

/-- What a directive that may use files does with its argument. -/
abbrev FileHandler := Option Text → FileAction Text

/-- A rewriting of a stretch of markup that may use files. -/
abbrev FileHook := Text → FileAction Text

/-- A transpiler whose directives and hooks may use files. -/
structure FileTranspiler where
  /-- Where it puts compiled files, if anywhere. -/
  cache : Option Cache
  comments : Markers
  echoes : EchoPasses
  directives : Table Text FileHandler
  /-- The hooks it runs, first to last. -/
  hooks : List FileHook

/-- The transpiler, among those that may use files. -/
def Transpiler.overFiles (transpiler : Transpiler) : FileTranspiler where
  cache := transpiler.cache
  comments := transpiler.comments
  echoes := transpiler.echoes
  directives := transpiler.directives.table.map fun handler argument => (handler argument).overFiles
  hooks := transpiler.hooks.map fun hook text => (hook text).overFiles

namespace FileTranspiler

variable {m : Type → Type} [Monad m]

/-- The names of the directives, in order. -/
def names (transpiler : FileTranspiler) : List Text := Text.sort transpiler.directives.keys

/-- An outcome as a step that changes nothing. -/
def liftExcept {α : Type} (outcome : Except TranspileError α) : FileRunM m α := ExceptT.mk (pure outcome)

variable [Files m]

/-- What stands in the place of a directive tag at a byte position. -/
def carryOutTag (transpiler : FileTranspiler) (answers : FileAnswers m) (start : Nat) (tag : DirectiveTag) :
    FileRunM m (List Piece) :=
  match if tag.escaped then none else transpiler.directives.find? tag.name with
  | none =>
    let start := if tag.escaped then start + escapeMarker.utf8Size else start
    pure (Piece.ofMarkup tag.unescaped start)
  | some handler =>
    let call (argument : Option Text) := (handler argument).run answers transpiler.names
    match tag.argument with
    | .unclosed => throw (.unterminatedTag .directive start)
    | .given text => do
      let output ← call (some text)
      pure [.output output]
    | .absent => do
      let output ← call none
      pure [.output (output ++ tag.spacing)]

/-- Carries out the directive tags of a text from left to right. -/
def carryOut (transpiler : FileTranspiler) (answers : FileAnswers m) (offset : Nat) :
    List (Text × DirectiveTag) → (last : Text) → FileRunM m (List Piece)
  | [], last => pure (Piece.ofMarkup last offset)
  | (before, tag) :: parts, last => do
    let start := offset + Text.byteLength before
    let here ← transpiler.carryOutTag answers start tag
    let later ← transpiler.carryOut answers (start + Text.byteLength tag.source) parts last
    pure (Piece.ofMarkup before offset ++ here ++ later)

/-- The pieces of a text with its directives carried out. -/
def scan (transpiler : FileTranspiler) (answers : FileAnswers m) (text : Text) : FileRunM m (List Piece) := do
  let offset := (← get).offset
  let (parts, last) := DirectiveTag.split text
  transpiler.carryOut answers offset parts last

/-- The text after every hook, each given what the one before it made. -/
def applyHooks (transpiler : FileTranspiler) (answers : FileAnswers m) (text : Text) : FileRunM m Text :=
  transpiler.hooks.foldlM (fun text hook => (hook text).run answers transpiler.names) text

/-- Markup rewritten: comments, hooks, directives, then echo tags. -/
def renderMarkup (transpiler : FileTranspiler) (answers : FileAnswers m) (text : Text) : FileRunM m Text := do
  let offset := (← get).offset
  let text ← liftExcept (transpiler.comments.stripComments offset text)
  let text ← transpiler.applyHooks answers text
  let pieces ← transpiler.scan answers text
  liftExcept (transpiler.echoes.transpilePieces pieces)

def renderSpans (transpiler : FileTranspiler) (answers : FileAnswers m) : List Span → FileRunM m Text
  | [] => pure []
  | span :: spans => do
    let here ←
      if span.isMarkup then do
        modify fun context => { context with offset := span.offset }
        transpiler.renderMarkup answers span.text
      else pure span.text
    let later ← transpiler.renderSpans answers spans
    pure (here ++ later)

/-- A template rewritten, with the given answers for what its directives ask. -/
def renderWith (transpiler : FileTranspiler) (answers : FileAnswers m) (source : Text) : FilesT m Text :=
  ExceptT.mk do
    let (outcome, context) ← (transpiler.renderSpans answers (Span.ofText source)).run .start
    pure (outcome.map fun document => Transpiler.withFooter document context.footer)

/-- The answers for requests that may nest `depth` more times. -/
def answersAt (transpiler : FileTranspiler) : (depth : Nat) → FileAnswers m
  | 0 => {
    statements := fun _ => throw .nesting
    echoes := transpiler.echoes.transpile
    compiler := ⟨transpiler.cache, fun _ => throw .nesting⟩ }
  | depth + 1 => {
    statements := fun text => Piece.joined <$> transpiler.scan (transpiler.answersAt depth) text
    echoes := transpiler.echoes.transpile
    compiler := ⟨transpiler.cache, transpiler.renderWith (transpiler.answersAt depth)⟩ }

/-- The compiler of a transpiler, with a limit on nesting for each text. -/
def compiler (transpiler : FileTranspiler) (limit : Text → Nat) : Compiler m :=
  ⟨transpiler.cache, fun source => transpiler.renderWith (transpiler.answersAt (limit source)) source⟩

end FileTranspiler

end Template
