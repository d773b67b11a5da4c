import Template.Path

/-! # Options

What the command line can ask for: a command with its own settings, and the settings that hold
for every command.
-/

namespace Template

inductive Command where
  /-- Compiles a template file; `force` does so even if its compiled form is up to date. -/
  | transpile (file : Path) (force : Bool)
  /-- Prints the code of a template file. -/
  | print (file : Path)
  /-- Prints the place of the compiled form of a template file. -/
  | path (file : Path)
  /-- Reports whether the compiled form of a template file is up to date. -/
  | status (file : Path) (json : Bool)
  /-- Compiles the templates below a directory; without extensions, under the configured ones. -/
  | compileAll (dir : Path) (force : Bool) (extensions : List Text)
  /-- Prints the place of a view, or of its compiled form; `paths` are searched last. -/
  | find (view : Text) (paths : List Path) (compiled : Bool)
  deriving DecidableEq, Repr

/-- What a command line asks for. -/
structure Options where
  /-- The configuration file, if one is named. -/
  config : Option Path
  /-- The directory for compiled files, if it differs from the configured one. -/
  cacheDir : Option Path
  /-- Whether reports of success are left out. -/
  quiet : Bool
  command : Command
  deriving DecidableEq, Repr

inductive Verb where
  | transpile
  | print
  | path
  | status
  | compileAll
  | find
  deriving DecidableEq, Repr

namespace Verb

def all : List Verb := [transpile, print, path, status, compileAll, find]

/-- A verb as it is written. -/
def name : Verb → Text
  | transpile => "transpile".toList
  | print => "print".toList
  | path => "path".toList
  | status => "status".toList
  | compileAll => "compile-all".toList
  | find => "find".toList

/-- The verb that is written so. -/
def ofName? (name : Text) : Option Verb := all.find? fun verb => verb.name = name

end Verb

/-- An option of the command line. -/
inductive Key where
  | config
  /-- Names the directory for compiled files. -/
  | cacheDir
  /-- Asks for more reports than there are. -/
  | verbose
  | quiet
  /-- Asks how to use the program. -/
  | help
  | version
  /-- Compiles what is up to date, too. -/
  | force
  /-- Asks for a report in JSON. -/
  | json
  | extension
  | viewPath
  | compiled
  deriving DecidableEq, Repr

namespace Key

/-- The long form, without its dashes. -/
def long : Key → Text
  | config => "config".toList
  | cacheDir => "cache-dir".toList
  | verbose => "verbose".toList
  | quiet => "quiet".toList
  | help => "help".toList
  | version => "version".toList
  | force => "force".toList
  | json => "json".toList
  | extension => "extension".toList
  | viewPath => "path".toList
  | compiled => "compiled".toList

/-- The short form, without its dash. -/
def short? : Key → Option Char
  | config => some 'c'
  | verbose => some 'v'
  | quiet => some 'q'
  | help => some 'h'
  | version => some 'V'
  | force => some 'f'
  | extension => some 'e'
  | viewPath => some 'p'
  | cacheDir | json | compiled => none

/-- Whether a value goes with the option. -/
def takesValue : Key → Bool
  | config | cacheDir | extension | viewPath => true
  | _ => false

/-- Whether the value is a path. -/
def takesPath : Key → Bool
  | config | cacheDir | viewPath => true
  | _ => false

/-- Whether the option can be given more than once. -/
def isRepeatable : Key → Bool
  | extension | viewPath => true
  | _ => false

/-- The options that go before a verb and after any verb. -/
def common : List Key := [config, cacheDir, verbose, quiet, help, version]

end Key

/-- The options of a verb, besides the common ones. -/
def Verb.keys : Verb → List Key
  | transpile => [.force]
  | print => []
  | path => []
  | status => [.json]
  | compileAll => [.force, .extension]
  | find => [.viewPath, .compiled]

end Template
