import Template.Cache
import Template.Directive.Builtin
import Template.Echo.Passes

/-! # Transpilers

A transpiler holds a valid configuration, the searches built from it, and the directives and
hooks it carries out. Its markers and its echo format are changed in place, step by step.
-/

namespace Template

/-- A rewriting of a stretch of markup before its directives and echo tags are looked at. -/
abbrev Hook := Text → Action Text

structure Transpiler where
  config : Config
  /-- Where it puts compiled files, if anywhere. -/
  cache : Option Cache
  comments : Markers
  echoes : EchoPasses
  directives : Registry
  /-- The hooks it runs, first to last. -/
  hooks : List Hook

namespace Transpiler

/-- A transpiler with the built-in directives and no hooks, for a configuration without fault. -/
def create (limit : Markers.Limit) (config : Config) : Except TranspileError Transpiler := do
  config.validate
  let comments ← Markers.build limit .comment config.commentTags
  let echoes ← EchoPasses.build limit config
  pure {
    config, comments, echoes
    cache := config.cacheDir.map fun dir => ⟨dir, config.compiledExtension⟩
    directives := .builtins
    hooks := [] }

/-- A change of a transpiler in place. What it has done before it fails stays done. -/
abbrev Edit := ExceptT TranspileError (StateM Transpiler) Unit

namespace Edit

/-- Builds the searches for another configuration, each taking its place as soon as it is built,
    and then takes the configuration over. -/
def reconfigure (limit : Markers.Limit) (config : Config) : Edit := do
  config.validate
  let comments ← Markers.build limit .comment config.commentTags
  modify fun transpiler => { transpiler with comments }
  let echoes ← EchoPasses.build limit config
  modify fun transpiler => { transpiler with echoes }
  modify fun transpiler => { transpiler with config }

/-- Gives a family other markers. -/
def setTags (limit : Markers.Limit) (kind : TagKind) (tags : TagPair) : Edit := do
  let config ← ((← get).config.setTags kind tags).mapError TranspileError.configuration
  reconfigure limit config

def setEchoFormat (limit : Markers.Limit) (format : Text) : Edit := do
  reconfigure limit { (← get).config with echoFormat := format }

/-- The transpiler that an edit makes of one, if it does not fail. -/
def apply (edit : Edit) (transpiler : Transpiler) : Except TranspileError Transpiler :=
  match edit.run transpiler with
  | (.ok (), transpiler) => .ok transpiler
  | (.error error, _) => .error error

end Edit

/-- The transpiler with other markers for a family. -/
def setTags (limit : Markers.Limit) (transpiler : Transpiler) (kind : TagKind) (tags : TagPair) :
    Except TranspileError Transpiler :=
  (Edit.setTags limit kind tags).apply transpiler

/-- The transpiler with another echo format. -/
def setEchoFormat (limit : Markers.Limit) (transpiler : Transpiler) (format : Text) :
    Except TranspileError Transpiler :=
  (Edit.setEchoFormat limit format).apply transpiler

/-- The transpiler with a directive for a name. -/
def addDirective (transpiler : Transpiler) (name : Text) (handler : Handler) : Transpiler :=
  { transpiler with directives := transpiler.directives.insert name handler }

/-- The transpiler without the directive of a name. -/
def eraseDirective (transpiler : Transpiler) (name : Text) : Transpiler :=
  { transpiler with directives := transpiler.directives.erase name }

/-- The transpiler with one more hook, run after the others. -/
def addHook (transpiler : Transpiler) (hook : Hook) : Transpiler :=
  { transpiler with hooks := transpiler.hooks ++ [hook] }

/-- The place of the compiled form of a template, if compiled files go anywhere. -/
def compiledPath? (transpiler : Transpiler) (source : Path) : Option Path :=
  transpiler.cache.map fun cache => cache.compiledPath source

/-- Description of a number of hooks. -/
def describeHooks (hooks : List Hook) : Text :=
  "Extensions \x7b count: ".toList ++ Text.ofNat hooks.length ++ " \x7d".toList

/-- Description by settings, directive names and number of hooks. -/
def describe (transpiler : Transpiler) : Text :=
  "Transpiler \x7b config: ".toList ++ transpiler.config.describe ++ ", directives: ".toList ++
    transpiler.directives.describe ++ ", extensions: ".toList ++
    describeHooks transpiler.hooks ++ " \x7d".toList

end Transpiler

end Template
