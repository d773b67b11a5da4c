import Template.Text.Basic

/-! # UTF-8

The byte form of a text, and reading it back. Bytes that are no text are read leniently
into replacement characters: one for each longest beginning of a well-formed sequence that
breaks off, and one for each byte that can begin none.
-/

namespace Template

abbrev Bytes := List UInt8

namespace Text

/-- The UTF-8 form of a text. -/
def utf8 (t : Text) : Bytes := t.flatMap String.utf8EncodeChar

end Text

namespace Bytes

/-- Reads `more` continuation bytes onto `value`, the next of them between `low` and `high`.
    Gives nothing when they break off, and what is left unread in either case. -/
def continuation : (more value low high : Nat) → Bytes → Option Nat × Bytes
  | 0, value, _, _, bytes => (some value, bytes)
  | _ + 1, _, _, _, [] => (none, [])
  | more + 1, value, low, high, b :: bytes =>
    if low ≤ b.toNat && b.toNat ≤ high then
      continuation more (value * 64 + b.toNat % 64) 0x80 0xBF bytes
    else (none, b :: bytes)

theorem length_continuation_le (more value low high : Nat) (bytes : Bytes) :
    (continuation more value low high bytes).2.length ≤ bytes.length := by
  fun_induction continuation more value low high bytes with
  | case1 => simp
  | case2 => simp
  | case3 more value low high b bytes _ ih => simp only [List.length_cons]; omega
  | case4 => simp

/-- Reads one code point that begins with byte `b`: nothing when `b` and the bytes that
    could go with it are not well-formed. -/
def codePoint (b : UInt8) (bytes : Bytes) : Option Nat × Bytes :=
  let n := b.toNat
  if n < 0x80 then (some n, bytes)
  else if 0xC2 ≤ n && n ≤ 0xDF then continuation 1 (n % 32) 0x80 0xBF bytes
  else if n = 0xE0 then continuation 2 (n % 16) 0xA0 0xBF bytes
  else if n = 0xED then continuation 2 (n % 16) 0x80 0x9F bytes
  else if 0xE1 ≤ n && n ≤ 0xEF then continuation 2 (n % 16) 0x80 0xBF bytes
  else if n = 0xF0 then continuation 3 (n % 8) 0x90 0xBF bytes
  else if 0xF1 ≤ n && n ≤ 0xF3 then continuation 3 (n % 8) 0x80 0xBF bytes
  else if n = 0xF4 then continuation 3 (n % 8) 0x80 0x8F bytes
  else (none, bytes)

theorem length_codePoint_le (b : UInt8) (bytes : Bytes) :
    (codePoint b bytes).2.length ≤ bytes.length := by
  unfold codePoint
  simp only
  repeat' split
  all_goals first | exact length_continuation_le .. | exact Nat.le_refl _

/-- The characters of a byte sequence, with nothing in place of each ill-formed part. -/
def units : Bytes → List (Option Char)
  | [] => []
  | b :: bytes =>
    ((codePoint b bytes).1.map Char.ofNat) :: units (codePoint b bytes).2
termination_by bytes => bytes.length
decreasing_by
  have := length_codePoint_le b bytes
  simp only [List.length_cons]
  omega

/-- The text whose UTF-8 form the bytes are, if they are one. -/
def text? (bytes : Bytes) : Option Text := (units bytes).mapM id

/-- The bytes as text, with the replacement character in place of each ill-formed part. -/
def lenientText (bytes : Bytes) : Text := (units bytes).map fun u => u.getD '\uFFFD'

end Bytes

end Template
