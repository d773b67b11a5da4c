import Template.View.Error

/-! # View names

A view is named by parts between dots, which stand for directories. A namespace and a double
colon may come first; the view is then looked for in that namespace's directories. Slashes may
be written in place of dots.
-/

namespace Template.ViewName

/-- Mark between a namespace and the view in it. -/
def delimiter : Text := [':', ':']

/-- The name with dots for the slashes of its view part. -/
def normalize (name : Text) : Text :=
  match Text.cut? delimiter name with
  | some (scope, view) => scope ++ delimiter ++ Text.replaceChar '/' '.' view
  | none => Text.replaceChar '/' '.' name

/-- Whether the name is given in a namespace. -/
def hasHint (name : Text) : Bool := Text.contains delimiter name

/-- The namespace and the view part of a name: both must be there, with one delimiter. -/
def splitHint (name : Text) : Except ViewError (Text × Text) :=
  match Text.cut? delimiter name with
  | some (scope, view) =>
    if scope = [] || view = [] || Text.contains delimiter view then .error (.invalidName name)
    else .ok (scope, view)
  | none => .error (.invalidName name)

/-- The relative path of a view, without extension. -/
def relativePath (view : Text) : Text := Text.replaceChar '.' '/' view

end Template.ViewName
