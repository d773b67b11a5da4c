import Template.Yaml.Character

/-! # Tokens of YAML

What a YAML stream is made of for the reader of its documents. The start and the end of block
collections are tokens of their own, found from the indentation.
-/

namespace Template.Yaml

inductive Token where
  | version (major minor : Nat)
  /-- What a tag handle stands for. -/
  | tagHandle (handle expansion : Text)
  | documentStart
  | documentEnd
  /-- Start of a sequence of indented lines. -/
  | blockSequenceStart
  /-- Start of a mapping of indented lines. -/
  | blockMappingStart
  | blockEnd
  | flowSequenceStart
  | flowSequenceEnd
  | flowMappingStart
  | flowMappingEnd
  /-- Start of an item of a sequence of lines. -/
  | blockEntry
  | flowEntry
  | key
  | value
  | alias (name : Text)
  /-- A name for the node that follows. -/
  | anchor (name : Text)
  /-- A tag of the node that follows. -/
  | tag (handle suffix : Text)
  | scalar (plain : Bool) (text : Text)
  deriving DecidableEq, Repr

end Template.Yaml
