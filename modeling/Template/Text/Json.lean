import Template.Text.Basic

/-! # JSON

Texts as JSON strings, and objects with one member to a line.
-/

namespace Template.Text

/-- One character inside a JSON string: the quote, the backslash and the control characters
    are spelled, the latter by a letter if they have one. -/
def jsonChar (c : Char) : Text :=
  if c = '"' then ['\\', '"']
  else if c = '\\' then ['\\', '\\']
  else if c = '\x08' then ['\\', 'b']
  else if c = '\x0c' then ['\\', 'f']
  else if c = '\n' then ['\\', 'n']
  else if c = '\r' then ['\\', 'r']
  else if c = '\t' then ['\\', 't']
  else if c.toNat < 0x20 then ['\\', 'u'] ++ padded 16 4 c.toNat
  else [c]

/-- A text as a JSON string. -/
def json (t : Text) : Text := ['"'] ++ t.flatMap jsonChar ++ ['"']

def jsonBool (b : Bool) : Text := if b then ofString "true" else ofString "false"

/-- A JSON object of members whose values are written already, each on an indented line. -/
def jsonObject (members : List (Text × Text)) : Text :=
  let lines := members.map fun (name, value) => [' ', ' '] ++ json name ++ [':', ' '] ++ value
  ['\x7b', '\n'] ++ join [',', '\n'] lines ++ ['\n', '\x7d']

end Template.Text
