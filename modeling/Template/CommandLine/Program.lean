import Template.CommandLine.Arguments
import Template.CommandLine.Commands

/-! # The program

From arguments to what is printed and the exit code.
-/

namespace Template.CommandLine

/-- What a run of the program leaves besides files. -/
structure Result where
  exit : ExitCode
  output : Text
  errors : Text
  deriving DecidableEq, Repr

namespace Result

def ofOutput (output : Text) : Result := ⟨.success, output, []⟩

def ofFailure (failure : Failure) : Result := ⟨failure.exitCode, [], failure.report⟩

def ofOutcome : Except Failure Text → Result
  | .ok output => ofOutput output
  | .error failure => ofFailure failure

/-- The outcome of compiling a folder. What failed is told in either case, and each template
    that did so only if reports are wanted. -/
def ofSummary (quiet : Bool) (summary : Summary) : Result :=
  let failures := summary.failed.flatMap fun (path, error) =>
    Failure.mark ++ ' ' :: path.text ++ ": ".toList ++ error.message ++ ['\n']
  let count := summary.failed.length
  let totals := "Results: ".toList ++ Text.ofNat summary.compiled ++ " compiled, ".toList ++
    Text.ofNat summary.upToDate ++ " up to date, ".toList ++ Text.ofNat count ++ " failed\n".toList
  let output := if quiet then [] else failures ++ totals
  if count = 0 then ofOutput output else { ofFailure (.incomplete count) with output }

end Result

def programName : Text := "plaze".toList

def programVersion : Text := "0.1.0".toList

/-- The line that tells the version, of the program or under a verb. -/
def versionLine (verb : Option Verb) : Text :=
  let under := match verb with
    | some verb => '-' :: verb.name
    | none => []
  programName ++ under ++ ' ' :: programVersion ++ ['\n']

def usage : Text :=
  "Usage: ".toList ++ programName ++ " [OPTIONS] <".toList ++
    Text.join ['|'] (Verb.all.map Verb.name) ++ "> ...\n".toList

/-- What is left where reading the arguments has ended. -/
def Result.ofHalt : Halt → Result
  | .refused => ⟨.configuration, [], usage⟩
  | .help => .ofOutput usage
  | .version verb => .ofOutput (versionLine verb)

variable {m : Type → Type} [Monad m] [Folders m]

/-- Carries out what the options ask for. -/
def execute (limit : Markers.Limit) (options : Options) : m Result := do
  match ← (configFor options : CommandT m ViewConfig).run with
  | .error failure => pure (.ofFailure failure)
  | .ok config =>
    let answer (step : CommandT m Text) : m Result := Result.ofOutcome <$> step.run
    match options.command with
    | .transpile file force => answer (transpile limit config options.quiet file force)
    | .print file => answer (print limit config file)
    | .path file => answer (path limit config file)
    | .status file json => answer (status limit config file json)
    | .find view paths compiled => answer (find limit config view paths compiled)
    | .compileAll dir force extensions =>
      match ← (compileAll limit config dir force extensions : CommandT m Summary).run with
      | .error failure => pure (.ofFailure failure)
      | .ok summary => pure (.ofSummary options.quiet summary)

/-- Runs the program with its arguments. -/
def run (limit : Markers.Limit) (environment : Environment) (arguments : List Text) : m Result :=
  match readArguments environment arguments with
  | .error halt => pure (.ofHalt halt)
  | .ok options => execute limit options

end Template.CommandLine
