import Template.Text.Basic

/-! # Nodes of YAML

A document is one node. An alias refers to a node by the number of its anchor; the document
says which node a number means, so a node may even refer to itself.
-/

namespace Template.Yaml

inductive Node where
  /-- A scalar, with its tag, and whether it is written plainly. -/
  | scalar (anchor : Option Nat) (tag : Option Text) (plain : Bool) (text : Text)
  | sequence (anchor : Option Nat) (items : List Node)
  /-- A mapping, as its keys and values in turn. -/
  | mapping (anchor : Option Nat) (entries : List Node)
  | alias (anchor : Nat)
  deriving Repr

namespace Node

/-- The scalar that stands where nothing is written. -/
def empty : Node := scalar none none true []

mutual

/-- The nodes with an anchor in a node, itself first, each before the nodes it holds. -/
def anchored : Node → List (Nat × Node)
  | scalar anchor tag plain text =>
    (anchor.map fun n => (n, scalar anchor tag plain text)).toList
  | sequence anchor items =>
    (anchor.map fun n => (n, sequence anchor items)).toList ++ anchoredAll items
  | mapping anchor entries =>
    (anchor.map fun n => (n, mapping anchor entries)).toList ++ anchoredAll entries
  | .alias _ => []

/-- The nodes with an anchor in some nodes. -/
def anchoredAll : List Node → List (Nat × Node)
  | [] => []
  | node :: nodes => anchored node ++ anchoredAll nodes

end

mutual

/-- Number of marks a node takes in a list of all of them: a scalar and an alias take one, a
    collection takes two around its own. -/
def size : Node → Nat
  | scalar .. | .alias _ => 1
  | sequence _ nodes | mapping _ nodes => 2 + sizeAll nodes

/-- Number of marks of some nodes. -/
def sizeAll : List Node → Nat
  | [] => 0
  | node :: nodes => size node + sizeAll nodes

end

end Node

end Template.Yaml
