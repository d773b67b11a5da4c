import Template.Cache

/-! # Compilers

A template file is read, its text is rewritten, and the code is stored at the template's place in the
cache. Without a cache no file is touched. How a text is rewritten is left open here, since a rewriting may
itself use files.
-/

namespace Template

/-- Where compiled files go, if anywhere, and how a text is rewritten. -/
structure Compiler (m : Type → Type) where
  cache : Option Cache
  rewrite : Text → FilesT m Text

namespace Compiler

variable {m : Type → Type} [Monad m] [Files m]

/-- The place of the compiled form of a template, if compiled files go anywhere. -/
def compiledPath? (compiler : Compiler m) (source : Path) : Option Path :=
  compiler.cache.map fun cache => cache.compiledPath source

/-- Compiles a template file and gives the place of its compiled form. -/
def compile (compiler : Compiler m) (source : Path) : FilesT m (Option Path) :=
  match compiler.cache with
  | none => pure none
  | some cache => do
    let text ← FilesT.io (Files.readText source)
    let code ← compiler.rewrite text
    let target := cache.compiledPath source
    FilesT.io (Files.writeText target code)
    pure (some target)

/-- Whether a template has to be compiled. Without a cache it always has. -/
def isStale (compiler : Compiler m) (source : Path) : FilesT m Bool :=
  match compiler.cache with
  | none => pure true
  | some cache => cache.isStale source

/-- Compiles a template file if it has to be, and tells whether a compiled form was written. -/
def compileIfStale (compiler : Compiler m) (source : Path) : FilesT m Bool :=
  match compiler.cache with
  | none => pure false
  | some cache => do
    if ← cache.isStale source then
      let written ← compiler.compile source
      pure written.isSome
    else pure false

section

variable {compiler : Compiler m} {cache : Cache} (source : Path)

omit [Monad m] [Files m] in
theorem compiledPath?_of_none (hcache : compiler.cache = none) : compiler.compiledPath? source = none := by
  unfold compiledPath?
  rw [hcache]
  rfl

omit [Monad m] [Files m] in
theorem compiledPath?_of_cache (hcache : compiler.cache = some cache) :
    compiler.compiledPath? source = some (cache.compiledPath source) := by
  unfold compiledPath?
  rw [hcache]
  rfl

theorem compile_of_none (hcache : compiler.cache = none) : compiler.compile source = pure none := by
  unfold compile
  rw [hcache]

theorem compile_of_cache (hcache : compiler.cache = some cache) : compiler.compile source = (do
    let text ← FilesT.io (Files.readText source)
    let code ← compiler.rewrite text
    FilesT.io (Files.writeText (cache.compiledPath source) code)
    pure (some (cache.compiledPath source))) := by
  unfold compile
  rw [hcache]

theorem isStale_of_cache (hcache : compiler.cache = some cache) :
    compiler.isStale source = cache.isStale source := by
  unfold isStale
  rw [hcache]

theorem compileIfStale_of_none (hcache : compiler.cache = none) : compiler.compileIfStale source = pure false := by
  unfold compileIfStale
  rw [hcache]

theorem compileIfStale_of_cache (hcache : compiler.cache = some cache) : compiler.compileIfStale source = (do
    if ← cache.isStale source then
      let written ← compiler.compile source
      pure written.isSome
    else pure false) := by
  unfold compileIfStale
  rw [hcache]

end

end Compiler

end Template
