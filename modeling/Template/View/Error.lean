import Template.Error

/-! # View errors

What can go wrong while a view is looked for or its compiled form is asked for.
-/

namespace Template

/-- Why a view cannot be had. -/
inductive ViewError where
  /-- None of the places tried holds the view. -/
  | notFound (name : Text) (tried : List Path)
  | invalidName (name : Text)
  | unknownNamespace (name : Text)
  /-- There is no place for compiled files. -/
  | cacheDisabled
  | transpile (error : TranspileError)
  | io (error : IoError)
  /-- A configuration file cannot be read as configuration. -/
  | yaml
  deriving DecidableEq, Repr

def ViewError.message : ViewError → Text
  | notFound name tried =>
    let places :=
      if tried = [] then "no locations".toList
      else Text.join ", ".toList (tried.map (·.text))
    "View [".toList ++ name ++ "] not found, tried: ".toList ++ places
  | invalidName name => "Invalid view name [".toList ++ name ++ "]".toList
  | unknownNamespace name => "No hint path defined for [".toList ++ name ++ "]".toList
  | cacheDisabled => "No cache directory configured for compiled views".toList
  | transpile error => "Transpile error: ".toList ++ error.message
  | io error => "IO error: ".toList ++ error.message
  | yaml => "YAML error: the document is no configuration".toList

end Template
