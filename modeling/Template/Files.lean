import Template.Error

/-! # Files

The file operations that compiling needs. They are asked of a monad, so that the same code
runs on files in memory, on a simulated disk, and on the disk of the machine.
-/

namespace Template

/-- A point in time, as a count of the store's ticks since its beginning. -/
abbrev Time := Nat

/-- A monad that can read and write files. -/
class Files (m : Type → Type) where
  readText : Path → m (Except IoError Text)
  /-- Whether something is at the path. -/
  isPresent : Path → m Bool
  /-- When the file was last written. -/
  modifiedAt : Path → m (Except IoError Time)
  /-- Stores a text in a file, in place of anything it held. -/
  writeText : Path → Text → m (Except IoError Unit)

/-- A step over files that may fail. -/
abbrev FilesT (m : Type → Type) := ExceptT TranspileError m

namespace FilesT

variable {m : Type → Type} [Monad m] {α : Type}

/-- A file operation, its failure as an error of the step. -/
def io (operation : m (Except IoError α)) : FilesT m α :=
  ExceptT.mk (Except.mapError TranspileError.io <$> operation)

end FilesT

end Template
