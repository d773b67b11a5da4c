import Template.Files.Folders
import Template.Table
import Template.Text.Utf8

/-! # Disks

A tree of directories and files, with a working directory and a clock. A path is followed name
by name, so each name but the last must be a directory. Storing a file makes the directories
it needs; those stay even if the file itself cannot be stored.

An operation fails for what the path and the tree say: something is missing or of the wrong kind, a
name or the path is too long, a character is zero, bytes are no text. Other causes are left out.
Nobody is denied access, nothing is full or out of order, there are no links, and nobody else
changes a file meanwhile. So a directory cannot be listed only where its path is too long. A
directory has no time of its own either; asked for it, the disk gives its clock.
-/

namespace Template

/-- The names down to a place on a disk, innermost first; the root has none. -/
abbrev Location := List Text

inductive Contents where
  | text (text : Text)
  /-- Bytes, which may be no text. -/
  | bytes (bytes : Bytes)
  deriving DecidableEq, Repr

namespace Contents

/-- The text of the contents, if they are one. -/
def text? : Contents → Option Text
  | text t => some t
  | bytes b => b.text?

/-- The contents as text, with replacement characters for what is none. -/
def lenientText : Contents → Text
  | text t => t
  | bytes b => b.lenientText

end Contents

/-- What is at a place on a disk. -/
inductive DiskNode where
  | directory
  /-- A file with its contents and the time it was written. -/
  | file (contents : Contents) (time : Time)
  deriving DecidableEq, Repr

structure Disk where
  nodes : Table Location DiskNode
  /-- Where paths that are not absolute start. -/
  workdir : Location
  /-- The time, in nanoseconds since the beginning of 1970. -/
  clock : Time
  deriving DecidableEq, Repr

namespace Disk

/-- Longest name of a file or directory, in bytes. -/
def nameLimit : Nat := 255

/-- Length at which a path is too long, in bytes. -/
def pathLimit : Nat := 4096

/-- The directories down to a place. -/
def directoriesTo : Location → Table Location DiskNode
  | [] => Table.empty.insert [] .directory
  | name :: around => (directoriesTo around).insert (name :: around) .directory

/-- A disk without files, with the directories down to the working directory. -/
def empty (workdir : Location) (clock : Time) : Disk := ⟨directoriesTo workdir, workdir, clock⟩

def node? (disk : Disk) (place : Location) : Option DiskNode := disk.nodes.find? place

/-- The disk with something at a place. -/
def put (disk : Disk) (place : Location) (node : DiskNode) : Disk :=
  { disk with nodes := disk.nodes.insert place node }

@[simp] theorem node?_put (disk : Disk) (place other : Location) (node : DiskNode) :
    (disk.put place node).node? other = if other = place then some node else disk.node? other :=
  Table.find?_insert ..

/-! ## Following paths -/

/-- The place that a name in a directory stands for: one dot for the directory itself, two
    for the one around it. -/
def step (disk : Disk) (dir : Location) (name : Text) : Except IoError Location :=
  match disk.node? dir with
  | none => .error .notFound
  | some (.file ..) => .error .notADirectory
  | some .directory =>
    if name = ['.'] then .ok dir
    else if name = ['.', '.'] then .ok dir.tail
    else if nameLimit < Text.byteLength name then .error .nameTooLong
    else .ok (name :: dir)

/-- The place a path leads to, whether or not anything is there. -/
def locate (disk : Disk) (path : Path) : Except IoError Location :=
  if '\x00' ∈ path.text then .error .zeroInPath
  else if path.text = [] then .error .notFound
  else if pathLimit ≤ Text.byteLength path.text then .error .nameTooLong
  else path.segments.foldlM disk.step (if path.isAbsolute then [] else disk.workdir)

/-- What a path leads to. A slash at its end asks for a directory. -/
def lookUp (disk : Disk) (path : Path) : Except IoError (Location × DiskNode) := do
  let place ← disk.locate path
  match disk.node? place with
  | none => .error .notFound
  | some .directory => .ok (place, .directory)
  | some (.file contents time) =>
    if path.endsInSlash then .error .notADirectory else .ok (place, .file contents time)

/-- Whether something is at a path. -/
def isPresent (disk : Disk) (path : Path) : Bool := (disk.lookUp path).isOk

/-- Whether a directory is at a path. -/
def isDirectory (disk : Disk) (path : Path) : Bool :=
  match disk.lookUp path with
  | .ok (_, .directory) => true
  | _ => false

/-! ## Reading -/

/-- The text of the file at a path. -/
def readText (disk : Disk) (path : Path) : Except IoError Text := do
  match ← disk.lookUp path with
  | (_, .directory) => .error .isADirectory
  | (_, .file contents _) =>
    match contents.text? with
    | some text => .ok text
    | none => .error .invalidText

/-- When what is at a path was last written. Directories change all the time. -/
def modifiedAt (disk : Disk) (path : Path) : Except IoError Time := do
  match ← disk.lookUp path with
  | (_, .directory) => .ok disk.clock
  | (_, .file _ time) => .ok time

/-- The names in the directory at a path, in order. -/
def entries (disk : Disk) (path : Path) : List Entry :=
  match disk.lookUp path with
  | .ok (dir, .directory) =>
    let held := disk.nodes.entries.filterMap fun
      | (name :: around, node) =>
        if around = dir then some ⟨name, decide (node = .directory)⟩ else none
      | ([], _) => none
    held.mergeSort fun a b => Text.le a.name b.name
  | _ => []

/-- The files below the working directory with their paths, the names of each directory in
    order. -/
def listing (disk : Disk) : List (Path × Contents) :=
  let files := disk.nodes.entries.filterMap fun (place, node) =>
    match node with
    | .directory => none
    | .file contents _ =>
      if disk.workdir.isSuffixOf place then
        some ((place.take (place.length - disk.workdir.length)).reverse, contents)
      else none
  (files.mergeSort fun a b => namesLe a.1 b.1).map fun (names, contents) =>
    (Path.ofComponents false names, contents)
where
  /-- Order of places by their first different name. -/
  namesLe : List Text → List Text → Bool
    | [], _ => true
    | _ :: _, [] => false
    | a :: as, b :: bs => if a = b then namesLe as bs else Text.le a b

/-! ## Writing -/

/-- The disk with a new directory at a path. -/
def createDirectory (disk : Disk) (path : Path) : Except IoError Disk := do
  let place ← disk.locate path
  match disk.node? place with
  | some _ => .error .alreadyExists
  | none => .ok (disk.put place .directory)

/-- Makes a directory at a path, unless one is there. -/
def admitDirectory (disk : Disk) (path : Path) : Except IoError Disk :=
  match disk.createDirectory path with
  | .ok disk => .ok disk
  | .error error => if disk.isDirectory path then .ok disk else .error error

/-- Sees to it that a directory is at the path with the given components, innermost first,
    and makes those around it only if it lacks them. -/
def ensureComponents (disk : Disk) (absolute : Bool) : List Text → Disk × Except IoError Unit
  | [] => (disk, .ok ())
  | part :: around =>
    let path := Path.ofComponents absolute (part :: around).reverse
    let (disk, lacking) :=
      if disk.createDirectory path matches .error .notFound then
        disk.ensureComponents absolute around
      else (disk, .ok ())
    match lacking with
    | .error error => (disk, .error error)
    | .ok () =>
      match disk.admitDirectory path with
      | .ok disk => (disk, .ok ())
      | .error error => (disk, .error error)

/-- Sees to it that a directory is at a path. -/
def ensureDirectory (disk : Disk) (path : Path) : Disk × Except IoError Unit :=
  disk.ensureComponents path.isAbsolute path.components.reverse

/-- The place where a file at the path is stored. -/
def fileLocation (disk : Disk) (path : Path) : Except IoError Location := do
  let place ← disk.locate path
  if path.endsInSlash || disk.node? place = some .directory then .error .isADirectory
  else .ok place

/-- Stores a file at a path in place of any earlier one, after the directories around it. -/
def store (disk : Disk) (path : Path) (contents : Contents) (time : Time) :
    Disk × Except IoError Unit :=
  let (disk, around) := match path.parent? with
    | some parent => disk.ensureDirectory parent
    | none => (disk, .ok ())
  match around with
  | .error error => (disk, .error error)
  | .ok () =>
    match disk.fileLocation path with
    | .error error => (disk, .error error)
    | .ok place => (disk.put place (.file contents time), .ok ())

/-- The disk without the file at a path, if there is one. -/
def remove? (disk : Disk) (path : Path) : Option Disk :=
  match disk.lookUp path with
  | .ok (place, .file ..) => some { disk with nodes := disk.nodes.erase place }
  | _ => none

/-- The disk with another time for the file at a path, if there is one. -/
def touch? (disk : Disk) (path : Path) (time : Time) : Option Disk :=
  match disk.lookUp path with
  | .ok (place, .file contents _) => some (disk.put place (.file contents time))
  | _ => none

end Disk

instance : Folders (StateM Disk) where
  readText path := do pure ((← get).readText path)
  isPresent path := do pure ((← get).isPresent path)
  modifiedAt path := do pure ((← get).modifiedAt path)
  writeText path text := modifyGet fun disk =>
    let (disk, outcome) := disk.store path (.text text) disk.clock
    (outcome, disk)
  isDirectory path := do pure ((← get).isDirectory path)
  entries path := do pure ((← get).entries path)

end Template
