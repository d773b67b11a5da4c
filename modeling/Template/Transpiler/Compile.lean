import Template.Compiler
import Template.Transpiler.Render

/-! # Compiling template files

A transpiler compiles template files into its cache, and rewrites their texts as any other text.
-/

namespace Template.Transpiler

variable {m : Type → Type} [Monad m] [Files m]

/-- The compiler of a transpiler, whose rewriting uses no files. -/
def compiler (transpiler : Transpiler) : Compiler m :=
  ⟨transpiler.cache, fun text => ExceptT.mk (pure (transpiler.render text))⟩

/-- Compiles a template file and gives the place of its compiled form. -/
def compile (transpiler : Transpiler) (source : Path) : FilesT m (Option Path) :=
  transpiler.compiler.compile source

/-- Whether a template has to be compiled. Without a cache it always has. -/
def isStale (transpiler : Transpiler) (source : Path) : FilesT m Bool :=
  transpiler.compiler.isStale source

/-- Compiles a template file if it has to be, and tells whether a compiled form was written. -/
def compileIfStale (transpiler : Transpiler) (source : Path) : FilesT m Bool :=
  transpiler.compiler.compileIfStale source

/-- Compiles a template file, in any case or only if it has to be, and tells whether a compiled
    form was written. -/
def refresh (transpiler : Transpiler) (always : Bool) (source : Path) : FilesT m Bool :=
  if always then Option.isSome <$> transpiler.compile source
  else transpiler.compileIfStale source

section

variable {transpiler : Transpiler} {cache : Cache} (source : Path)

theorem compile_of_cache (hcache : transpiler.cache = some cache) :
    (transpiler.compile source : FilesT m (Option Path)) = (do
      let text ← FilesT.io (Files.readText source)
      let code ← ExceptT.mk (pure (transpiler.render text))
      FilesT.io (Files.writeText (cache.compiledPath source) code)
      pure (some (cache.compiledPath source))) :=
  @Compiler.compile_of_cache m _ _ transpiler.compiler cache source hcache

theorem isStale_of_cache (hcache : transpiler.cache = some cache) :
    (transpiler.isStale source : FilesT m Bool) = cache.isStale source :=
  @Compiler.isStale_of_cache m _ _ transpiler.compiler cache source hcache

theorem compileIfStale_of_cache (hcache : transpiler.cache = some cache) :
    (transpiler.compileIfStale source : FilesT m Bool) = (do
      if ← cache.isStale source then
        let written ← transpiler.compile source
        pure written.isSome
      else pure false) :=
  @Compiler.compileIfStale_of_cache m _ _ transpiler.compiler cache source hcache

end

end Template.Transpiler
