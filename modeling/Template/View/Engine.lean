import Template.Transpiler.Compile
import Template.View.Config

/-! # Engines

An engine answers a view's name with the place of its compiled form, which it brings up to
date first.
-/

namespace Template

namespace Compiler

variable {m : Type → Type} [Monad m] [Files m]

/-- The place of the compiled form of a template, compiled now if it has to be. -/
def compiled (compiler : Compiler m) (source : Path) : m (Except ViewError Path) :=
  match compiler.compiledPath? source with
  | none => pure (.error .cacheDisabled)
  | some target => do
    match ← (compiler.compileIfStale source).run with
    | .ok _ => pure (.ok target)
    | .error error => pure (.error (.transpile error))

/-- The place of the compiled form of a view, and the finder with what it remembers. -/
def resolve (compiler : Compiler m) (finder : Finder) (name : Text) : m (Except ViewError Path × Finder) := do
  let (outcome, finder) ← finder.find name
  match outcome with
  | .error error => pure (.error error, finder)
  | .ok source => do
    let outcome ← compiler.compiled source
    pure (outcome, finder)

section

variable {compiler : Compiler m} {cache : Cache} (source : Path)

theorem compiled_of_none (hcache : compiler.cache = none) :
    compiler.compiled source = pure (.error .cacheDisabled) := by
  unfold compiled
  rw [compiledPath?_of_none source hcache]

theorem compiled_of_cache (hcache : compiler.cache = some cache) : compiler.compiled source = (do
    match ← (compiler.compileIfStale source).run with
    | .ok _ => pure (.ok (cache.compiledPath source))
    | .error error => pure (.error (.transpile error))) := by
  unfold compiled
  rw [compiledPath?_of_cache source hcache]

end

end Compiler

/-- A finder and a transpiler for what it finds. -/
structure Engine where
  transpiler : Transpiler
  finder : Finder

namespace Engine

/-- The engine of a view configuration. -/
def ofConfig (limit : Markers.Limit) (config : ViewConfig) : Except ViewError Engine := do
  let transpiler ← (Transpiler.create limit config.transpiler).mapError .transpile
  pure ⟨transpiler, config.finder⟩

section

variable {m : Type → Type} [Monad m] [Files m]

/-- The place of the compiled form of a template, compiled now if it has to be. -/
def compiled (engine : Engine) (source : Path) : m (Except ViewError Path) :=
  engine.transpiler.compiler.compiled source

/-- The place of the compiled form of a view, and the engine with what it remembers. -/
def resolve (engine : Engine) (name : Text) : m (Except ViewError Path × Engine) := do
  let (outcome, finder) ← engine.transpiler.compiler.resolve engine.finder name
  pure (outcome, { engine with finder })

end

end Engine

end Template
