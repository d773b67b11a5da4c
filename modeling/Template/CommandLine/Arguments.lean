import Template.CommandLine.Options
import Template.Text.Basic

/-! # Arguments

Arguments are read on two levels: the common options up to a verb, then the verb's options and
its operand. Either level may give a common option. The value of an option may be joined to it
or follow as the next argument; such a value is looked at when the reading goes on at its level
or ends there. After two dashes every argument is an operand.
-/

namespace Template.CommandLine

/-- Why reading ends before a command is known. -/
inductive Halt where
  | refused
  | help
  /-- The version is asked for, of the program or under a verb. -/
  | version (verb : Option Verb)
  deriving DecidableEq, Repr

/-- Word that asks for help in the place of a verb. -/
def helpWord : Text := "help".toList

abbrev Reading := Except Halt

/-- Settings that hold where the arguments are silent. -/
structure Environment where
  config : Option Text
  cacheDir : Option Text
  deriving DecidableEq, Repr

/-- The environment's value for an option. -/
def Environment.value? (environment : Environment) : Key → Option Text
  | .config => environment.config
  | .cacheDir => environment.cacheDir
  | _ => none

/-- What one level has given so far. -/
structure Given where
  /-- Options in the order they were read, each with its value; those without have an empty one. -/
  options : List (Key × Text)
  /-- An option that is not looked at yet, with its value if that has come. -/
  pending : Option (Key × Option Text)
  operands : List Text
  deriving DecidableEq, Repr

namespace Given

def nothing : Given := ⟨[], none, []⟩

def has (given : Given) (key : Key) : Bool := given.options.any fun entry => entry.1 = key

def values (given : Given) (key : Key) : List Text :=
  given.options.filterMap fun entry => if entry.1 = key then some entry.2 else none

/-- Notes an option: only some may be repeated, and no path is empty. -/
def note (given : Given) (key : Key) (value : Text) : Reading Given :=
  if given.has key && !key.isRepeatable then throw .refused
  else if key.takesPath && value.isEmpty then throw .refused
  else pure { given with options := given.options ++ [(key, value)] }

/-- Looks at the pending option, which must have its value by now. -/
def settle (given : Given) : Reading Given :=
  match given.pending with
  | none => pure given
  | some (_, none) => throw .refused
  | some (key, some value) => { given with pending := none }.note key value

/-- Whether the next argument is the value of an option. -/
def awaitsValue (given : Given) : Bool := given.pending matches some (_, none)

/-- Gives the pending option its value. -/
def supply (given : Given) (value : Text) : Given :=
  { given with pending := given.pending.map fun (key, _) => (key, some value) }

end Given

/-- The first level, or the level of a verb. -/
abbrev Level := Option Verb

namespace Level

def keys : Level → List Key
  | none => Key.common
  | some verb => Key.common ++ verb.keys

/-- Whether an operand may stand here: each verb has one, and only a view may be empty. -/
def accepts (level : Level) (given : Given) (operand : Text) : Bool :=
  level.isSome && given.operands.isEmpty && (level = some .find || !operand.isEmpty)

def readOperand (level : Level) (given : Given) (operand : Text) : Reading Given := do
  let given ← given.settle
  if level.accepts given operand then pure { given with operands := given.operands ++ [operand] }
  else throw .refused

def readFlag (level : Level) (given : Given) (key : Key) : Reading Given := do
  let given ← given.settle
  match key with
  | .help => throw .help
  | .version => throw (.version level)
  | key => given.note key []

/-- Reads an option with a value that is joined to it, or to follow. -/
def readValued (given : Given) (key : Key) (joined : Option Text) : Reading Given := do
  let given ← given.settle
  match joined with
  | some value => given.note key value
  | none => pure { given with pending := some (key, none) }

/-- Reads an argument after its two dashes. -/
def readLong (level : Level) (given : Given) (argument : Text) : Reading Given :=
  let (name, joined) := match Text.cut? ['='] argument with
    | some (name, value) => (name, some value)
    | none => (argument, none)
  match level.keys.find? fun key => key.long = name with
  | none => throw .refused
  | some key =>
    if key.takesValue then readValued given key joined
    else if joined.isSome then throw .refused
    else level.readFlag given key

/-- Reads an argument after its single dash: options without value may be run together, and
    one with a value may end them. -/
def readShort (level : Level) (given : Given) : Text → Reading Given
  | [] => pure given
  | c :: rest =>
    match level.keys.find? fun key => key.short? = some c with
    | none => throw .refused
    | some key =>
      if key.takesValue then
        readValued given key (match rest with
          | [] => none
          | '=' :: value => some value
          | value => some value)
      else do level.readShort (← level.readFlag given key) rest

/-- What asking for help comes to: at most one known word may follow. -/
def helpOn : List Text → Halt
  | [] => .help
  | [topic] => if topic = helpWord || (Verb.ofName? topic).isSome then .help else .refused
  | _ => .refused

/-- Reads arguments up to a verb, if the level may have one, or to their end. Gives what was
    read, and the verb with the arguments after it. -/
def read (level : Level) (given : Given) : List Text → Reading (Given × Option (Verb × List Text))
  | [] => pure (given, none)
  | argument :: arguments => do
    if given.awaitsValue then
      match argument with
      | '-' :: _ :: _ => throw .refused
      | value => level.read (given.supply value) arguments
    else
      if level.isNone && argument = helpWord then throw (helpOn arguments)
      match if level.isNone then Verb.ofName? argument else none with
      | some verb => pure (given, some (verb, arguments))
      | none =>
        match argument with
        | ['-', '-'] => pure (← arguments.foldlM level.readOperand given, none)
        | '-' :: '-' :: long => level.read (← level.readLong given long) arguments
        | '-' :: c :: short => level.read (← level.readShort given (c :: short)) arguments
        | operand => level.read (← level.readOperand given operand) arguments

/-- What a level has given in the end. What the environment says takes part, and options that
    contradict each other do not go together. -/
def finish (environment : Environment) (given : Given) : Reading Given := do
  let given ← given.settle
  let blank (key : Key) : Bool := !given.has key && environment.value? key == some []
  if blank .config || blank .cacheDir || given.has .verbose && given.has .quiet then
    throw .refused
  else pure given

end Level

/-- The command of a verb with what was given under it. -/
def commandOf (verb : Verb) (given : Given) (operand : Text) : Command :=
  match verb with
  | .transpile => .transpile ⟨operand⟩ (given.has .force)
  | .print => .print ⟨operand⟩
  | .path => .path ⟨operand⟩
  | .status => .status ⟨operand⟩ (given.has .json)
  | .compileAll => .compileAll ⟨operand⟩ (given.has .force) (given.values .extension)
  | .find => .find operand ((given.values .viewPath).map Path.mk) (given.has .compiled)

/-- The options for what both levels have given: the verb's level speaks first, and the
    environment last. -/
def optionsOf (environment : Environment) (outer inner : Given) (command : Command) : Options :=
  let value (key : Key) : Option Path :=
    let values := inner.values key ++ outer.values key ++ (environment.value? key).toList
    values.head?.map Path.mk
  { config := value .config
    cacheDir := value .cacheDir
    quiet := inner.has .quiet || outer.has .quiet
    command }

/-- Reads the arguments of the program. -/
def readArguments (environment : Environment) (arguments : List Text) : Reading Options := do
  match ← Level.read none .nothing arguments with
  | (_, none) => throw .refused
  | (outer, some (verb, arguments)) =>
    let (inner, _) ← Level.read (some verb) .nothing arguments
    let inner ← Level.finish environment inner
    match inner.operands with
    | [operand] =>
      let outer ← Level.finish environment outer
      pure (optionsOf environment outer inner (commandOf verb inner operand))
    | _ => throw .refused

end Template.CommandLine
