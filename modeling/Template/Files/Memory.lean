import Template.Files
import Template.Table

/-! # Files in memory

A store of texts by path, without directories: paths are compared as they are written. What
is written is stamped with the store's clock, which only moves when it is set. A store can be
closed for writing.
-/

namespace Template

structure StoredFile where
  text : Text
  time : Time
  deriving DecidableEq, Repr

/-- A store of files in memory. -/
structure Memory where
  files : Table Path StoredFile
  /-- The time of the next write. -/
  clock : Time
  readOnly : Bool
  deriving DecidableEq, Repr

namespace Memory

/-- A store without files, at time zero. -/
def empty : Memory := ⟨.empty, 0, false⟩

def file? (memory : Memory) (path : Path) : Option StoredFile := memory.files.find? path

def readText (memory : Memory) (path : Path) : Except IoError Text :=
  match memory.file? path with
  | some file => .ok file.text
  | none => .error (.noSuchFile path)

/-- The time of the file at a path. -/
def modifiedAt (memory : Memory) (path : Path) : Except IoError Time :=
  match memory.file? path with
  | some file => .ok file.time
  | none => .error (.noSuchFile path)

/-- The store with a file put at a path. -/
def put (memory : Memory) (path : Path) (text : Text) (time : Time) : Memory :=
  { memory with files := memory.files.insert path ⟨text, time⟩ }

/-- The store without the file at a path. -/
def remove (memory : Memory) (path : Path) : Memory :=
  { memory with files := memory.files.erase path }

/-- The store with another time for the file at a path, if there is one. -/
def touch (memory : Memory) (path : Path) (time : Time) : Memory :=
  match memory.file? path with
  | some file => memory.put path file.text time
  | none => memory

/-- The store after a write at its clock, or why it is refused. -/
def writeText (memory : Memory) (path : Path) (text : Text) : Except IoError Memory :=
  if memory.readOnly then .error (.readOnly path)
  else .ok (memory.put path text memory.clock)

/-- Every file with its path, in the order of the paths. -/
def listing (memory : Memory) : List (Path × StoredFile) :=
  memory.files.entries.mergeSort fun a b => Text.le a.1.text b.1.text

end Memory

instance : Files (StateM Memory) where
  readText path := do pure ((← get).readText path)
  isPresent path := do pure ((← get).file? path).isSome
  modifiedAt path := do pure ((← get).modifiedAt path)
  writeText path text := do
    match (← get).writeText path text with
    | .ok memory => set memory; pure (.ok ())
    | .error error => pure (.error error)

end Template
