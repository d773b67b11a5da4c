import Template.Text.Quoted

/-! # Paths

A path is kept as it is written. Joining, and the parts between its slashes, are read off
the text; two paths name the same place when their components agree.
-/

namespace Template

/-- A file location as it is written, with `/` between its parts. -/
structure Path where
  text : Text
  deriving DecidableEq, Repr

namespace Path

/-- The path of a string literal. -/
abbrev ofString (s : String) : Path := ⟨s.toList⟩

/-- Whether the path starts at the root. -/
def isAbsolute (p : Path) : Bool := p.text.head? == some '/'

/-- `relative` below `dir`: one slash stands between them unless `dir` is empty or ends in
    one. An absolute path stands for itself. -/
def join (dir relative : Path) : Path :=
  if relative.isAbsolute then relative
  else if dir.text = [] || dir.text.getLast? == some '/' then ⟨dir.text ++ relative.text⟩
  else ⟨dir.text ++ '/' :: relative.text⟩

def segments (p : Path) : List Text := (Text.splitOn '/' p.text).filter (· ≠ [])

/-- The segments that matter for the place a path names: a dot counts only at the start of a
    path that is not absolute. -/
def components (p : Path) : List Text :=
  match p.isAbsolute, p.segments with
  | false, ['.'] :: rest => ['.'] :: rest.filter (· ≠ ['.'])
  | _, all => all.filter (· ≠ ['.'])

/-- Whether two paths agree in their components. -/
def same (p q : Path) : Bool := p.isAbsolute == q.isAbsolute && p.components == q.components

/-- The path with the given components. -/
def ofComponents (absolute : Bool) (parts : List Text) : Path :=
  ⟨(if absolute then ['/'] else []) ++ Text.join ['/'] parts⟩

/-- The path without its last component, if it has one. -/
def parent? (p : Path) : Option Path :=
  if p.components = [] then none else some (ofComponents p.isAbsolute p.components.dropLast)

/-- Whether the path ends in a slash. -/
def endsInSlash (p : Path) : Bool := p.text.getLast? == some '/'

def quoted (p : Path) : Text := Text.quotedPath p.text

end Path

end Template
