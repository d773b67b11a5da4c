import Template.View.Error

/-! # Failures

Why a command fails. A failure is worded by its causes, from what was being done down to what
went wrong first; the kind of cause decides the exit code.
-/

namespace Template

/-- The causes of a failed transpilation. -/
def TranspileError.causes (error : TranspileError) : List Text :=
  match error with
  | .io inner => [error.message, inner.message]
  | _ => [error.message]

/-- The causes of a failed look-up. -/
def ViewError.causes (error : ViewError) : List Text :=
  match error with
  | .transpile inner => error.message :: inner.causes
  | .io inner => [error.message, inner.message]
  | _ => [error.message]

namespace CommandLine

inductive ExitCode where
  | success
  /-- The command failed for a reason without a code of its own. -/
  | failure
  /-- The configuration or the arguments are wrong. -/
  | configuration
  | template
  | missingView
  deriving DecidableEq, Repr

/-- The number of an exit code. -/
def ExitCode.number : ExitCode → Nat
  | success => 0
  | failure => 1
  | configuration => 2
  | template => 3
  | missingView => 4

inductive Task where
  | loadConfig (path : Path)
  /-- Making a transpiler of the configuration. -/
  | setUp
  | read (path : Path)
  /-- Asking for the time of a template file. -/
  | readMetadata (path : Path)
  | transpile (path : Path)
  deriving DecidableEq, Repr

/-- Wording of a task that failed. -/
def Task.describe : Task → Text
  | loadConfig path => "Failed to load configuration ".toList ++ path.quoted
  | setUp => "Failed to set up the transpiler".toList
  | read path => "Failed to read ".toList ++ path.quoted
  | readMetadata path => "Failed to read metadata of ".toList ++ path.quoted
  | transpile path => "Failed to transpile ".toList ++ path.quoted

inductive Failure where
  | transpile (error : TranspileError)
  | view (error : ViewError)
  | io (error : IoError)
  /-- What should be a directory is none. -/
  | notAFolder (path : Path)
  /-- A number of templates in a folder failed. -/
  | incomplete (count : Nat)
  | during (task : Task) (cause : Failure)
  deriving DecidableEq, Repr

namespace Failure

/-- What went wrong, the last cause last. -/
def causes : Failure → List Text
  | transpile error => error.causes
  | view error => error.causes
  | io error => [error.message]
  | notAFolder path => ["Template directory not found: ".toList ++ path.quoted]
  | incomplete count => [Text.ofNat count ++ " template(s) failed to transpile".toList]
  | during task cause => task.describe :: cause.causes

/-- Mark before the wording of a failure. -/
def mark : Text := "❌".toList

/-- The line that reports a failure. -/
def report (failure : Failure) : Text :=
  mark ++ " Error: ".toList ++ Text.join ": ".toList failure.causes ++ ['\n']

end Failure

/-- The exit code for a failed transpilation. -/
def exitCodeOf (error : TranspileError) : ExitCode :=
  if error.isTemplateError then .template
  else match error with
    | .configuration _ | .yaml => .configuration
    | _ => .failure

/-- The exit code for a failed look-up. -/
def exitCodeOfView : ViewError → ExitCode
  | .notFound .. | .unknownNamespace _ => .missingView
  | .invalidName _ | .cacheDisabled | .yaml => .configuration
  | .transpile error => exitCodeOf error
  | .io _ => .failure

/-- The exit code for a failure, which is that of its first cause. -/
def Failure.exitCode : Failure → ExitCode
  | transpile error => exitCodeOf error
  | view error => exitCodeOfView error
  | io _ | notAFolder _ | incomplete _ => .failure
  | during _ cause => cause.exitCode

end CommandLine

end Template
