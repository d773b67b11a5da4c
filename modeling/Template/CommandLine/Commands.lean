import Template.CommandLine.Failure
import Template.CommandLine.Options
import Template.CommandLine.Status
import Template.ConfigFile
import Template.Transpiler.Folder
import Template.View.Engine

/-! # Commands

What each command does. A command gives the text it prints, or why it failed.
-/

namespace Template.CommandLine

/-- A step of a command that may fail. -/
abbrev CommandT (m : Type → Type) := ExceptT Failure m

/-- The configuration file that is used if none is named. -/
def defaultConfigFile : Path := .ofString "plaze.yaml"

namespace CommandT

variable {m : Type → Type} [Monad m] {α : Type}

/-- A file operation of a command. -/
def io (operation : m (Except IoError α)) : CommandT m α :=
  ExceptT.mk (Except.mapError Failure.io <$> operation)

/-- A step of a transpiler in a command. -/
def transpiling (step : FilesT m α) : CommandT m α := ExceptT.adapt Failure.transpile step

/-- A look-up of views in a command. -/
def viewing (outcome : Except ViewError α) : CommandT m α :=
  ExceptT.mk (pure (outcome.mapError Failure.view))

/-- A step as a part of a task. -/
def during (task : Task) (step : CommandT m α) : CommandT m α :=
  ExceptT.adapt (Failure.during task) step

end CommandT

open CommandT

section

variable {m : Type → Type} [Monad m] [Files m]

/-- The settings in a configuration file. -/
def loadConfig (path : Path) : CommandT m ViewConfig :=
  during (.loadConfig path) do
    viewing (← (ViewConfig.load path : m (Except ViewError ViewConfig)))

/-- The settings that the options ask for. -/
def configFor (options : Options) : CommandT m ViewConfig := do
  let config ←
    match options.config with
    | some path => loadConfig path
    | none =>
      if ← (Files.isPresent defaultConfigFile : m Bool) then loadConfig defaultConfigFile
      else pure .default
  match options.cacheDir with
  | some dir => pure (config.withCacheDir dir)
  | none => pure config

variable (limit : Markers.Limit) (config : ViewConfig)

def transpilerFor : CommandT m Transpiler :=
  during .setUp (transpiling (ExceptT.mk (pure (Transpiler.create limit config.transpiler))))

/-- The transpiler of the settings and its place for compiled files, which must be there. -/
def compilerFor : CommandT m (Transpiler × Cache) := do
  let transpiler ← transpilerFor limit config
  match transpiler.cache with
  | some cache => pure (transpiler, cache)
  | none => throw (.view .cacheDisabled)

def transpile (quiet : Bool) (file : Path) (force : Bool) : CommandT m Text := do
  let (transpiler, cache) ← compilerFor limit config
  let written ← during (.transpile file) (transpiling (transpiler.refresh force file))
  let compiled := cache.compiledPath file
  if quiet then pure []
  else if written then
    pure ("✅ ".toList ++ file.text ++ " → ".toList ++ compiled.text ++ ['\n'])
  else
    pure ("✔️  ".toList ++ file.text ++ " is up to date (".toList ++ compiled.text ++ ")\n".toList)

/-- Prints the code of a template file. -/
def print (file : Path) : CommandT m Text := do
  let transpiler ← transpilerFor limit config
  let source ← during (.read file) (io (Files.readText file))
  during (.transpile file) (transpiling (ExceptT.mk (pure (transpiler.render source))))

/-- Prints the place of the compiled form of a template file. -/
def path (file : Path) : CommandT m Text := do
  let (_, cache) ← compilerFor limit config
  pure ((cache.compiledPath file).text ++ ['\n'])

/-- The state of a template file and its compiled form. -/
def statusOf (file : Path) : CommandT m Status := do
  let (transpiler, cache) ← compilerFor limit config
  let sourceTime ← during (.readMetadata file) (io (Files.modifiedAt file))
  let compiled := cache.compiledPath file
  let compiledTime ← (Files.modifiedAt compiled : m (Except IoError Time))
  let stale ← transpiling (transpiler.isStale file)
  pure ⟨file, sourceTime, compiled, compiledTime.toOption, stale⟩

/-- Reports the state of a template file and its compiled form. -/
def status (file : Path) (json : Bool) : CommandT m Text := do
  let status ← statusOf limit config file
  pure (if json then status.json else status.text)

/-- Prints the place of a view, or of its compiled form. -/
def find (view : Text) (paths : List Path) (compiled : Bool) : CommandT m Text := do
  let engine ← viewing (Engine.ofConfig limit config)
  let engine := { engine with finder := paths.foldl Finder.addLocation engine.finder }
  let outcome : Except ViewError Path ←
    if compiled then Prod.fst <$> (engine.resolve view : m (Except ViewError Path × Engine))
    else Prod.fst <$> (engine.finder.find view : m (Except ViewError Path × Finder))
  let place ← viewing outcome
  pure (place.text ++ ['\n'])

end

/-- Compiles the templates below a directory. -/
def compileAll {m : Type → Type} [Monad m] [Folders m] (limit : Markers.Limit)
    (config : ViewConfig) (dir : Path) (force : Bool) (extensions : List Text) :
    CommandT m Summary := do
  if !(← (Folders.isDirectory dir : m Bool)) then throw (.notAFolder dir)
  let (transpiler, _) ← compilerFor limit config
  let extensions := if extensions = [] then config.extensions else extensions
  (transpiler.compileFolder extensions force dir : m Summary)

end Template.CommandLine
