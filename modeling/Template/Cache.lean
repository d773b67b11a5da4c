import Template.Digest.Sha256
import Template.Files

/-! # Compiled files

Every template has one place for its compiled form, named after the digest of the template's
path. The compiled form is out of date unless the template is strictly older.
-/

namespace Template

/-- Name for a path: the digest of its text in hexadecimal digits. -/
def Path.digest (p : Path) : Text := Sha256.hexDigest p.text.utf8

structure Cache where
  dir : Path
  extension : Text
  deriving DecidableEq, Repr

namespace Cache

/-- The place of the compiled form of a template. -/
def compiledPath (cache : Cache) (source : Path) : Path :=
  cache.dir.join ⟨source.digest ++ '.' :: cache.extension⟩

/-- Whether a template has to be compiled: its compiled form is missing, or the template is
    not strictly older than it. -/
def isStale {m : Type → Type} [Monad m] [Files m] (cache : Cache) (source : Path) :
    FilesT m Bool := do
  let compiled := cache.compiledPath source
  if !(← (Files.isPresent compiled : m Bool)) then pure true
  else
    let sourceTime ← FilesT.io (Files.modifiedAt source)
    let compiledTime ← FilesT.io (Files.modifiedAt compiled)
    pure (compiledTime ≤ sourceTime)

def describe (cache : Cache) : Text :=
  "CompiledCache \x7b cache_dir: ".toList ++ cache.dir.quoted ++ ", extension: ".toList ++
    cache.extension.quoted ++ " \x7d".toList

end Cache

end Template
