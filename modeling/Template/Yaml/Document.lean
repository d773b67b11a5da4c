import Template.Yaml.Node
import Template.Yaml.Tokens

/-! # Documents of YAML

The tokens of a stream read as its only document. An anchor gets the number of the names seen
before it; of two anchors with one number the later one counts.
-/

namespace Template.Yaml

structure Document where
  root : Node
  deriving Repr

/-- The node that an anchor number means. -/
def Document.anchored? (document : Document) (number : Nat) : Option Node :=
  (document.root.anchored.reverse.find? fun entry => entry.1 = number).map (·.2)

/-- What is left to read of a document. -/
structure Reading where
  tokens : List Token
  /-- What the tag handles stand for. -/
  handles : List (Text × Text)
  /-- The numbers of the anchor names seen. -/
  anchors : List (Text × Nat)

/-- A reader of tokens; it gives nothing when they form no document. -/
abbrev Reader := StateT Reading Option

namespace Reader

/-- The next token, which is not taken. -/
def peek : Reader (Option Token) := do pure (← get).tokens.head?

def skip : Reader Unit := modify fun reading => { reading with tokens := reading.tokens.drop 1 }

/-- Takes the next token if it is the given one. -/
def take? (token : Token) : Reader Bool := do
  if (← peek) == some token then
    skip
    pure true
  else pure false

/-- Whether the next token is one of the given ones. -/
def at? (tokens : List Token) : Reader Bool := do pure ((← peek).any (tokens.contains ·))

/-- Takes the comma before an item in brackets, and tells whether an item may follow. None is
    needed before the first one. -/
def follows (first : Bool) : Reader Bool := if first then pure true else take? .flowEntry

/-- Gives an anchor name its number. -/
def define (name : Text) : Reader Nat := do
  let number := (← get).anchors.length
  modify fun reading =>
    { reading with
      anchors := (name, number) :: reading.anchors.filter fun entry => entry.1 ≠ name }
  pure number

/-- The whole text of a tag. -/
def expand (handle suffix : Text) : Reader Text := do
  if handle = [] then pure suffix
  else
    match (← get).handles.lookup handle with
    | some expansion => pure (expansion ++ suffix)
    | none => failure

/-- Takes an anchor, if one comes next. -/
def anchor : Reader (Option Text) := do
  match ← peek with
  | some (.anchor name) => do
    skip
    pure (some name)
  | _ => pure none

/-- Takes a tag, if one comes next. -/
def tag : Reader (Option Text) := do
  match ← peek with
  | some (.tag handle suffix) => do
    skip
    some <$> expand handle suffix
  | _ => pure none

/-- Takes the anchor and the tag of a node, in either order. -/
def properties : Reader (Option Text × Option Text) := do
  match ← anchor with
  | some name => pure (some name, ← tag)
  | none =>
    match ← tag with
    | some text => pure (← anchor, some text)
    | none => pure (none, none)

mutual

/-- Takes a node. `block` allows block collections, and `indentless` a sequence whose dashes
    are not indented. -/
def node : (fuel : Nat) → (block indentless : Bool) → Reader Node
  | 0, _, _ => failure
  | fuel + 1, block, indentless => do
    match ← peek with
    | some (.alias name) => do
      skip
      match (← get).anchors.lookup name with
      | some number => pure (.alias number)
      | none => failure
    | _ => do
      let (name, tag) ← properties
      let number ← name.mapM define
      match ← peek with
      | some (.scalar plain text) => do
        skip
        pure (.scalar number (if tag == some ['!'] then none else tag) plain text)
      | some .flowSequenceStart => do
        skip
        .sequence number <$> flowItems fuel true
      | some .flowMappingStart => do
        skip
        .mapping number <$> flowEntries fuel true
      | some token =>
        if indentless && token == .blockEntry then
          .sequence number <$> plainItems fuel
        else if block && token == .blockSequenceStart then do
          skip
          .sequence number <$> blockItems fuel
        else if block && token == .blockMappingStart then do
          skip
          .mapping number <$> blockEntries fuel
        else if name.isSome || tag.isSome then pure (.scalar number tag true [])
        else failure
      | none =>
        if name.isSome || tag.isSome then pure (.scalar number tag true []) else failure

/-- Takes a node, or the empty scalar before one of the given tokens. -/
def nodeUnless : (fuel : Nat) → (block indentless : Bool) → List Token → Reader Node
  | 0, _, _, _ => failure
  | fuel + 1, block, indentless, tokens => do
    if ← at? tokens then pure .empty else node fuel block indentless

/-- Takes the items of an indented sequence. -/
def blockItems : (fuel : Nat) → Reader (List Node)
  | 0 => failure
  | fuel + 1 => do
    if ← take? .blockEntry then
      let item ← nodeUnless fuel true false [.blockEntry, .blockEnd]
      (item :: ·) <$> blockItems fuel
    else if ← take? .blockEnd then pure []
    else failure

/-- Takes the items of a sequence that is not indented. -/
def plainItems : (fuel : Nat) → Reader (List Node)
  | 0 => failure
  | fuel + 1 => do
    if ← take? .blockEntry then
      let item ← nodeUnless fuel true false [.blockEntry, .key, .value, .blockEnd]
      (item :: ·) <$> plainItems fuel
    else pure []

/-- Takes the entries of an indented mapping. -/
def blockEntries : (fuel : Nat) → Reader (List Node)
  | 0 => failure
  | fuel + 1 => do
    if ← take? .key then
      let key ← nodeUnless fuel true true [.key, .value, .blockEnd]
      let value ←
        if ← take? .value then nodeUnless fuel true true [.key, .value, .blockEnd]
        else pure .empty
      ([key, value] ++ ·) <$> blockEntries fuel
    else if ← take? .blockEnd then pure []
    else failure

/-- Takes the items of a sequence in brackets. -/
def flowItems : (fuel : Nat) → (first : Bool) → Reader (List Node)
  | 0, _ => failure
  | fuel + 1, first => do
    if ← take? .flowSequenceEnd then pure []
    else if ← follows first then
      if ← take? .key then
        let pair ← flowPair fuel
        (pair :: ·) <$> flowItems fuel false
      else if ← take? .flowSequenceEnd then pure []
      else
        let item ← node fuel false false
        (item :: ·) <$> flowItems fuel false
    else failure

/-- Takes a single entry of a mapping that is written as an item in brackets. Where its key is
    missing, the token in its place is lost. -/
def flowPair : (fuel : Nat) → Reader Node
  | 0 => failure
  | fuel + 1 => do
    let key ←
      if ← at? [.value, .flowEntry, .flowSequenceEnd] then do
        skip
        pure .empty
      else node fuel false false
    let value ←
      if ← take? .value then nodeUnless fuel false false [.flowEntry, .flowSequenceEnd]
      else pure .empty
    pure (.mapping none [key, value])

/-- Takes the entries of a mapping in braces. -/
def flowEntries : (fuel : Nat) → (first : Bool) → Reader (List Node)
  | 0, _ => failure
  | fuel + 1, first => do
    if ← take? .flowMappingEnd then pure []
    else if ← follows first then
      if ← take? .key then
        let key ← nodeUnless fuel false false [.value, .flowEntry, .flowMappingEnd]
        let value ←
          if ← take? .value then nodeUnless fuel false false [.flowEntry, .flowMappingEnd]
          else pure .empty
        ([key, value] ++ ·) <$> flowEntries fuel false
      else if ← take? .flowMappingEnd then pure []
      else
        let key ← node fuel false false
        ([key, .empty] ++ ·) <$> flowEntries fuel false
    else failure

end

/-- Takes the directives before a document: one version at most, and each handle once. -/
def directives : (fuel : Nat) → (versioned : Bool) → Reader Unit
  | 0, _ => failure
  | fuel + 1, versioned => do
    match ← peek with
    | some (.version major minor) =>
      if versioned || major ≠ 1 || (minor ≠ 1 && minor ≠ 2) then failure
      else do
        skip
        directives fuel true
    | some (.tagHandle handle expansion) =>
      if ((← get).handles.lookup handle).isSome then failure
      else do
        skip
        modify fun reading => { reading with handles := (handle, expansion) :: reading.handles }
        directives fuel versioned
    | _ => pure ()

/-- What the handles stand for that need no directive. -/
def defaultHandles : List (Text × Text) :=
  [(['!'], ['!']), (['!', '!'], "tag:yaml.org,2002:".toList)]

/-- Takes the document of a stream and everything after it, which may only be marks for its
    end. A stream without tokens holds the empty scalar. -/
def document (fuel : Nat) : Reader Document := do
  if (← peek).isNone then pure ⟨.empty⟩
  else
    let explicit := (← peek).any fun
      | .version .. | .tagHandle .. | .documentStart => true
      | _ => false
    let root ←
      if explicit then do
        directives fuel false
        modify fun reading => { reading with handles := reading.handles ++ defaultHandles }
        if ← take? .documentStart then
          let ended := (← peek).all fun
            | .version .. | .tagHandle .. | .documentStart | .documentEnd => true
            | _ => false
          if ended then pure .empty else node fuel true false
        else failure
      else do
        modify fun reading => { reading with handles := defaultHandles }
        node fuel true false
    if (← get).tokens.all (· == .documentEnd) then pure ⟨root⟩ else failure

end Reader

/-- The only document of a stream. Each token is taken once and nests the readers at most three
    deep. -/
def document? (t : Text) : Option Document := do
  let tokens ← tokens? t
  let (document, _) ← (Reader.document (3 * tokens.length + 3)).run ⟨tokens, [], []⟩
  pure document

end Template.Yaml
