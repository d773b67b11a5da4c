import Template.Text.Blank

/-! # Tags

A template holds tags of five families. All but the directives are written between an
opening and a closing marker that can be configured.
-/

namespace Template

inductive TagKind where
  | comment
  | directive
  /-- An expression echoed as it is. -/
  | rawEcho
  | escapedEcho
  /-- An expression echoed through the echo format. -/
  | regularEcho
  deriving DecidableEq, Repr

namespace TagKind

def all : List TagKind := [comment, directive, rawEcho, escapedEcho, regularEcho]

/-- Name of the family in a sentence. -/
def label : TagKind → Text
  | comment => "comment".toList
  | directive => "directive".toList
  | rawEcho => "raw echo".toList
  | escapedEcho => "escaped echo".toList
  | regularEcho => "regular echo".toList

/-- Name of the family in data. -/
def key : TagKind → Text
  | comment => "comment".toList
  | directive => "directive".toList
  | rawEcho => "raw_echo".toList
  | escapedEcho => "escaped_echo".toList
  | regularEcho => "regular_echo".toList

/-- The family with the given name in data. -/
def ofKey? (name : Text) : Option TagKind := all.find? fun kind => kind.key = name

theorem ofKey?_key (kind : TagKind) : ofKey? kind.key = some kind := by
  cases kind <;> decide

end TagKind

/-- An opening and a closing marker. -/
structure TagPair where
  opening : Text
  closing : Text
  deriving DecidableEq, Repr

namespace TagPair

/-- The pair of two string literals. -/
abbrev ofStrings (opening closing : String) : TagPair := ⟨opening.toList, closing.toList⟩

/-- Whether one of the markers holds nothing but blanks. -/
def isBlank (pair : TagPair) : Bool := pair.opening.isAllBlank || pair.closing.isAllBlank

end TagPair

/-- Marker that makes the tag after it literal text. -/
def escapeMarker : Char := '@'

end Template
