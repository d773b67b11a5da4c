import Template.Files

/-! # Journals

A journal lists the file operations that were asked for, oldest first, whether they succeeded
or not. It can be kept over any files and changes nothing else.
-/

namespace Template

/-- A file operation that was asked for. -/
inductive FileRequest where
  | read (path : Path)
  | present (path : Path)
  /-- Asking for the time of a file. -/
  | modified (path : Path)
  | write (path : Path)
  deriving DecidableEq, Repr

def FileRequest.describe : FileRequest → Text
  | read path => "read ".toList ++ path.text
  | present path => "exists ".toList ++ path.text
  | modified path => "modified ".toList ++ path.text
  | write path => "write ".toList ++ path.text

abbrev Journal := List FileRequest

namespace Journal

variable {m : Type → Type} [Monad m]

/-- Adds a request to the journal. -/
def note (request : FileRequest) : StateT Journal m Unit := modify (· ++ [request])

instance [Files m] : Files (StateT Journal m) where
  readText path := do note (.read path); liftM (Files.readText path : m _)
  isPresent path := do note (.present path); liftM (Files.isPresent path : m _)
  modifiedAt path := do note (.modified path); liftM (Files.modifiedAt path : m _)
  writeText path text := do note (.write path); liftM (Files.writeText path text : m _)

end Journal

end Template
