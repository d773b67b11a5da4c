import Template.Text.Basic

/-! # Characters of YAML

The characters a YAML stream may hold, the ones that break lines and separate words, and the
place of a character in the stream.
-/

namespace Template.Yaml

/-- Whether a stream may hold the character. -/
def isAllowed (c : Char) : Bool :=
  let n := c.toNat
  n = 0x09 || n = 0x0A || n = 0x0D || (0x20 ≤ n && n ≤ 0x7E) || n = 0x85 ||
    (0xA0 ≤ n && n ≤ 0xD7FF) || (0xE000 ≤ n && n ≤ 0xFFFD) || 0x10000 ≤ n

/-- Whether the character breaks a line. -/
def isBreak (c : Char) : Bool :=
  c = '\n' || c = '\r' || c = '\x85' || c = '\u2028' || c = '\u2029'

/-- Whether the character separates words within a line. -/
def isSpace (c : Char) : Bool := c = ' ' || c = '\t'

/-- Whether a space, a line break or the end comes next. -/
def endsWord (next : Option Char) : Bool := next.all fun c => isSpace c || isBreak c

/-- Whether a line break or the end comes next. -/
def endsLine (next : Option Char) : Bool := next.all isBreak

/-- Whether the character may stand in the name of an anchor or a handle. -/
def isName (c : Char) : Bool := c.isAlphanum || c = '_' || c = '-'

def hexDigit? (c : Char) : Option Nat :=
  if c.isDigit then some (c.toNat - 48)
  else if 'a' ≤ c && c ≤ 'f' then some (c.toNat - 87)
  else if 'A' ≤ c && c ≤ 'F' then some (c.toNat - 55)
  else none

/-- Whether the character is the first of the two that make up one line break. -/
def isPairedBreak (c : Char) (next : Option Char) : Bool := c = '\r' && next == some '\n'

/-- What a line break stands for in a scalar: the breaks of plain text are all line feeds. -/
def breakText (c : Char) : Text := if c = '\u2028' || c = '\u2029' then [c] else ['\n']

structure Mark where
  index : Nat
  line : Nat
  /-- Characters before it in its line. -/
  column : Nat
  deriving DecidableEq, Repr

namespace Mark

def start : Mark := ⟨0, 0, 0⟩

/-- The place after `n` characters of a line. -/
def advance (mark : Mark) (n : Nat) : Mark :=
  { mark with index := mark.index + n, column := mark.column + n }

/-- The place after a line break. -/
def newLine (mark : Mark) : Mark := ⟨mark.index + 1, mark.line + 1, 0⟩

end Mark

/-- Whether a mark that divides documents is at the head of the text, in the first column. -/
def isDocumentMark (mark : Mark) : Text → Bool
  | a :: b :: c :: rest =>
    mark.column = 0 && a = b && b = c && (a = '-' || a = '.') && endsWord rest.head?
  | _ => false

end Template.Yaml
