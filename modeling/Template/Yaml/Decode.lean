import Template.Yaml.Document

/-! # Values from documents

How nodes are read as texts, lists and records. Every scalar is a text as it is written; where
nothing is written, a list or a record is empty. Following an alias is counted, so that a small
document cannot stand for a huge value.
-/

namespace Template.Yaml

/-- Reads a value from a document, counting the aliases followed so far. -/
abbrev Decoder := ReaderT Document (StateT Nat Option)

namespace Decoder

/-- Reads a value from the root of a document. -/
def run {α : Type} (document : Document) (decode : Node → Decoder α) : Option α :=
  (decode document.root document 0).map (·.1)

/-- The node itself, an alias followed to the node it means. -/
def target : Node → Decoder Node
  | .alias number => do
    let document ← read
    let followed := (← get) + 1
    set followed
    if 100 * document.root.size < followed then failure
    else
      match document.anchored? number with
      | some node => pure node
      | none => failure
  | node => pure node

/-- A text: any scalar, as it is written. -/
def text (node : Node) : Decoder Text := do
  match ← target node with
  | .scalar _ _ _ text => pure text
  | _ => failure

/-- Whether the text is one of the spellings of nothing. -/
def isNull (text : Text) : Bool :=
  ["null".toList, "Null".toList, "NULL".toList, "~".toList].contains text

def nullTag : Text := "tag:yaml.org,2002:null".toList

/-- A text that may be absent: nothing, or a spelling of it without quotes. -/
def optionalText (node : Node) : Decoder (Option Text) := do
  match ← target node with
  | .scalar _ tag plain text =>
    if !plain then pure (some text)
    else
      match tag with
      | none => pure (if text = [] || isNull text then none else some text)
      | some tag =>
        if tag = nullTag then (if isNull text then pure none else failure)
        else pure (some text)
  | _ => failure

def list {α : Type} (item : Node → Decoder α) (node : Node) : Decoder (List α) := do
  match ← target node with
  | .sequence _ items => items.mapM item
  | .scalar _ _ true [] => pure []
  | _ => failure

/-- The entries of a mapping, by the texts of their keys. -/
def entriesOf : List Node → Decoder (List (Text × Node))
  | key :: value :: nodes => do
    let key ← text key
    let entries ← entriesOf nodes
    pure ((key, value) :: entries)
  | _ => pure []

/-- The entries of a mapping node. -/
def entries (node : Node) : Decoder (List (Text × Node)) := do
  match ← target node with
  | .mapping _ nodes => entriesOf nodes
  | .scalar _ _ true [] => pure []
  | _ => failure

/-- The entries of a record: each of its fields at most once. Other keys are passed over. -/
def fields (names : List String) (node : Node) : Decoder (List (Text × Node)) := do
  let found := (← entries node).filter fun entry => names.any fun name => name.toList = entry.1
  if (found.map (·.1)).Nodup then pure found else failure

/-- A field of a record, or its default where it is missing. -/
def field {α : Type} (entries : List (Text × Node)) (name : String) (default : α)
    (decode : Node → Decoder α) : Decoder α :=
  match entries.lookup name.toList with
  | some node => decode node
  | none => pure default

/-- A field that must not be missing. -/
def required {α : Type} (entries : List (Text × Node)) (name : String)
    (decode : Node → Decoder α) : Decoder α :=
  match entries.lookup name.toList with
  | some node => decode node
  | none => failure

end Decoder

end Template.Yaml
