import Template.Path
import Template.Tag

/-! # Errors

What can go wrong while files are used, a transpiler is set up, or a template is rewritten.
Each error is a cause; its wording is in one `message` function per type.
-/

namespace Template

inductive IoError where
  /-- A store without directories holds no file at the path. -/
  | noSuchFile (path : Path)
  /-- A store without directories refuses every write. -/
  | readOnly (path : Path)
  /-- A part of the path is missing. -/
  | notFound
  | alreadyExists
  /-- A file stands where a directory is needed. -/
  | notADirectory
  /-- A directory stands where a file is needed. -/
  | isADirectory
  /-- A name or the whole path is too long. -/
  | nameTooLong
  /-- A zero character cannot be part of a path. -/
  | zeroInPath
  /-- The bytes of the file are no text. -/
  | invalidText
  /-- A failure that only the system describes. -/
  | system (description : Text)
  deriving DecidableEq, Repr

/-- Wording of a failed file operation. -/
def IoError.message : IoError → Text
  | noSuchFile path => "no such file: ".toList ++ path.text
  | readOnly path => "read only: ".toList ++ path.text
  | notFound => "No such file or directory (os error 2)".toList
  | alreadyExists => "File exists (os error 17)".toList
  | notADirectory => "Not a directory (os error 20)".toList
  | isADirectory => "Is a directory (os error 21)".toList
  | nameTooLong => "File name too long (os error 36)".toList
  | zeroInPath => "file name contained an unexpected NUL byte".toList
  | invalidText => "stream did not contain valid UTF-8".toList
  | system description => description

inductive ConfigFault where
  | blankCacheDir
  /-- A marker of the family is blank. -/
  | blankMarker (kind : TagKind)
  /-- Two echo families have the same opening marker. -/
  | sharedOpening (opening : Text)
  /-- The echo format has no place for the expression. -/
  | noPlaceholder (format : Text)
  /-- The extension of compiled files is blank or holds a separator. -/
  | badExtension (extension : Text)
  /-- Directives have no markers to configure. -/
  | directiveMarkers
  /-- A fault found by a directive or a hook, in its own words. -/
  | stated (message : Text)
  deriving DecidableEq, Repr

/-- Place in an echo format that the expression takes. -/
def echoPlaceholder : Text := "%s".toList

def ConfigFault.message : ConfigFault → Text
  | blankCacheDir => "Please verify that the cache path is valid".toList
  | blankMarker kind => kind.label ++ " delimiters must not be empty".toList
  | sharedOpening opening =>
    "echo families share the opening delimiter '".toList ++ opening ++ "'".toList
  | noPlaceholder format =>
    "echo format '".toList ++ format ++ "' has no '".toList ++ echoPlaceholder ++
      "' placeholder".toList
  | badExtension extension => "invalid compiled extension '".toList ++ extension ++ "'".toList
  | directiveMarkers => "directives have no configurable delimiters".toList
  | stated message => message

/-- Why a transpiler could not be set up or run. -/
inductive TranspileError where
  | configuration (fault : ConfigFault)
  /-- A tag that starts at a byte position of the template has no end. -/
  | unterminatedTag (kind : TagKind) (offset : Nat)
  | handler (directive message : Text)
  /-- Markers of the family cannot be searched for. -/
  | pattern (kind : TagKind)
  | io (error : IoError)
  /-- A configuration file cannot be read as configuration. -/
  | yaml
  /-- Requests nest more deeply than the run allows. This stands for a program that runs out of stack: the
      run ends with it, and no directive and no hook is told of it. -/
  | nesting
  deriving DecidableEq, Repr

namespace TranspileError

/-- Whether the error points at malformed template text. -/
def isTemplateError : TranspileError → Bool
  | unterminatedTag .. | handler .. => true
  | _ => false

def message : TranspileError → Text
  | configuration fault => "Invalid transpiler configuration: ".toList ++ fault.message
  | unterminatedTag kind offset =>
    "Unterminated ".toList ++ kind.label ++ " tag at offset ".toList ++ Text.ofNat offset
  | handler directive message =>
    "Directive '".toList ++ directive ++ "' failed: ".toList ++ message
  | pattern kind => "Invalid tag pattern: ".toList ++ kind.label ++ " markers are too long".toList
  | io error => "IO error: ".toList ++ error.message
  | yaml => "YAML error: the document is no configuration".toList
  | nesting => "Directives are nested too deeply".toList

end TranspileError

end Template
