import Template.Text.Basic
import Template.Text.Picture

/-! # Quoted text

Descriptions show a text between double quotes. Inside, a backslash starts each spelling
that stands for something else: the control characters with a short name, the quote, the
backslash, and characters without a plain picture by their code point in hexadecimal.
Locations are quoted the same way, and spell the single quote as well.
-/

namespace Template.Text

/-- Spelling of a character by its code point. -/
def codePointEscape (c : Char) : Text :=
  ['\\', 'u', '\x7b'] ++ Nat.toDigits 16 c.toNat ++ ['\x7d']

/-- One character inside quotes; `single` says whether the single quote is spelled too. -/
def quotedChar (single : Bool) (c : Char) : Text :=
  if c = '\x00' then ['\\', '0']
  else if c = '\t' then ['\\', 't']
  else if c = '\r' then ['\\', 'r']
  else if c = '\n' then ['\\', 'n']
  else if c = '\\' then ['\\', '\\']
  else if c = '"' then ['\\', '"']
  else if c = '\'' && single then ['\\', '\'']
  else if hasPicture c then [c]
  else codePointEscape c

def quoted (t : Text) : Text := ['"'] ++ t.flatMap (quotedChar false) ++ ['"']

def quotedPath (t : Text) : Text := ['"'] ++ t.flatMap (quotedChar true) ++ ['"']

def bracketed (items : List Text) : Text := ['['] ++ join (ofString ", ") items ++ [']']

end Template.Text
