import Template.Files
import Template.Table
import Template.View.Name

/-! # Finders

A finder looks for a view in its directories, in order, and in each under its extensions, in
order. What it has found it remembers until its places change or it is told to forget.
-/

namespace Template

/-- Extensions that are tried unless others are named, the preferred one first. -/
def defaultExtensions : List Text := ["plaze.php".toList, "php".toList]

structure Finder where
  paths : List Path
  hints : Table Text (List Path)
  extensions : List Text
  /-- Places of the views found so far, by normalized name. -/
  found : Table Text Path
  deriving DecidableEq, Repr

namespace Finder

/-- A finder for directories, with the default extensions. -/
def ofPaths (paths : List Path) : Finder := ⟨paths, .empty, defaultExtensions, .empty⟩

/-- The finder without memory of what it found. -/
def flush (finder : Finder) : Finder := { finder with found := .empty }

/-- The finder with one more directory, searched last. -/
def addLocation (finder : Finder) (path : Path) : Finder :=
  flush { finder with paths := finder.paths ++ [path] }

/-- The finder with one more directory, searched first. -/
def prependLocation (finder : Finder) (path : Path) : Finder :=
  flush { finder with paths := path :: finder.paths }

def hintPaths (finder : Finder) (scope : Text) : List Path := (finder.hints.find? scope).getD []

/-- The finder with other directories for a namespace. -/
def replaceNamespace (finder : Finder) (scope : Text) (paths : List Path) : Finder :=
  flush { finder with hints := finder.hints.insert scope paths }

/-- The finder with more directories for a namespace, searched last. -/
def addNamespace (finder : Finder) (scope : Text) (paths : List Path) : Finder :=
  finder.replaceNamespace scope (finder.hintPaths scope ++ paths)

/-- The finder with more directories for a namespace, searched first. -/
def prependNamespace (finder : Finder) (scope : Text) (paths : List Path) : Finder :=
  finder.replaceNamespace scope (paths ++ finder.hintPaths scope)

/-- The finder with an extension as the preferred one. -/
def addExtension (finder : Finder) (extension : Text) : Finder :=
  flush { finder with extensions := extension :: finder.extensions.filter (· ≠ extension) }

def setExtensions (finder : Finder) (extensions : List Text) : Finder :=
  flush { finder with extensions }

/-- The file names a view may have below a directory. -/
def fileNames (finder : Finder) (view : Text) : List Path :=
  finder.extensions.map fun extension => ⟨ViewName.relativePath view ++ '.' :: extension⟩

/-- The places of a view in some directories, in the order they are tried. -/
def candidates (finder : Finder) (view : Text) (paths : List Path) : List Path :=
  paths.flatMap fun dir => (finder.fileNames view).map dir.join

/-- What a normalized name asks for: the view part and the directories to look in. -/
def request (finder : Finder) (name : Text) : Except ViewError (Text × List Path) :=
  if ViewName.hasHint name then do
    let (scope, view) ← ViewName.splitHint name
    match finder.hints.find? scope with
    | some paths => pure (view, paths)
    | none => throw (.unknownNamespace scope)
  else pure (name, finder.paths)

section

variable {m : Type → Type} [Monad m] [Files m]

/-- The first of the paths at which something is. -/
def firstPresent? : List Path → m (Option Path)
  | [] => pure none
  | path :: paths => do
    if ← (Files.isPresent path : m Bool) then pure (some path) else firstPresent? paths

/-- Looks for a normalized name without regard to what was found before. -/
def lookUp (finder : Finder) (name : Text) : m (Except ViewError Path) :=
  match finder.request name with
  | .error error => pure (.error error)
  | .ok (view, paths) => do
    let places := finder.candidates view paths
    match ← (firstPresent? places : m (Option Path)) with
    | some path => pure (.ok path)
    | none => pure (.error (.notFound name places))

/-- Looks for a view, and remembers where it is. -/
def find (finder : Finder) (name : Text) : m (Except ViewError Path × Finder) :=
  let name := ViewName.normalize name
  match finder.found.find? name with
  | some path => pure (.ok path, finder)
  | none => do
    match ← (finder.lookUp name : m (Except ViewError Path)) with
    | .ok path => pure (.ok path, { finder with found := finder.found.insert name path })
    | .error error => pure (.error error, finder)

end

/-- The namespaces with their directories, in the order of the names. -/
def namespaces (hints : Table Text (List Path)) : List (Text × List Path) :=
  hints.entries.mergeSort fun a b => Text.le a.1 b.1

/-- Description by places, extensions and the number of views found. -/
def describe (finder : Finder) : Text :=
  let paths (paths : List Path) : Text := Text.bracketed (paths.map Path.quoted)
  let hints := (namespaces finder.hints).map fun (scope, dirs) =>
    scope.quoted ++ ": ".toList ++ paths dirs
  "FileViewFinder \x7b paths: ".toList ++ paths finder.paths ++
    ", hints: \x7b".toList ++ Text.join ", ".toList hints ++
    "\x7d, extensions: ".toList ++ Text.bracketed (finder.extensions.map Text.quoted) ++
    ", cached: ".toList ++ Text.ofNat finder.found.size ++ " \x7d".toList

end Finder

end Template
