import Template.Text.Utf8
import Template.Yaml.Character

/-! # Tags and directives of YAML

A tag is written in full between angle brackets, or as a handle and a suffix. Characters of a
tag may be spelled by their UTF-8 bytes, each after a percent sign.
-/

namespace Template.Yaml

/-- Whether the character may stand in a tag; the flow indicators only between brackets. -/
def isTagChar (bracketed : Bool) (c : Char) : Bool :=
  isName c || ";/?:@&=+$.%!~*'()".toList.contains c || (bracketed && ",[]".toList.contains c)

/-- Number of bytes of the sequence that a byte begins. -/
def sequenceLength? (n : Nat) : Option Nat :=
  if n < 0x80 then some 1
  else if n / 32 = 6 then some 2
  else if n / 16 = 14 then some 3
  else if n / 8 = 30 then some 4
  else none

/-- The bytes that tag characters spell; `owed` bytes of a sequence are still to come. -/
def tagBytes? : (owed : Nat) → Text → Option Bytes
  | 0, [] => some []
  | _ + 1, [] => none
  | owed, '%' :: h :: l :: t => do
    let n := (← hexDigit? h) * 16 + (← hexDigit? l)
    match owed with
    | 0 => do
      let length ← sequenceLength? n
      (UInt8.ofNat n :: ·) <$> tagBytes? (length - 1) t
    | owed + 1 => if n / 64 = 2 then (UInt8.ofNat n :: ·) <$> tagBytes? owed t else none
  | 0, c :: t => if c = '%' then none else (UInt8.ofNat c.toNat :: ·) <$> tagBytes? 0 t
  | _ + 1, _ :: _ => none

/-- The tag characters at the head of the text as the text they spell, and the text after
    them. -/
def readTagText? (bracketed : Bool) (t : Text) : Option (Text × Text) := do
  let bytes ← tagBytes? 0 (t.takeWhile (isTagChar bracketed))
  pure (bytes.lenientText, t.dropWhile (isTagChar bracketed))

/-- A handle at the head of the text, and the text after it: an exclamation mark, a name, and
    another exclamation mark if there is one. -/
def readHandle? : Text → Option (Text × Text)
  | '!' :: t =>
    let name := t.takeWhile isName
    match t.dropWhile isName with
    | '!' :: rest => some ('!' :: name ++ ['!'], rest)
    | rest => some ('!' :: name, rest)
  | _ => none

/-- The handle and the suffix of a tag at the head of the text, and the text after it. An empty
    handle means that the suffix is the whole tag. -/
def readTag? (t : Text) : Option (Text × Text × Text) :=
  match t with
  | '!' :: '<' :: t => do
    let (suffix, rest) ← readTagText? true t
    if suffix = [] then none
    else
      match rest with
      | '>' :: rest => pure ([], suffix, rest)
      | _ => none
  | _ => do
    let (handle, rest) ← readHandle? t
    if 1 < handle.length && handle.getLast? == some '!' then do
      let (suffix, rest) ← readTagText? false rest
      if suffix = [] then none else pure (handle, suffix, rest)
    else do
      let (more, rest) ← readTagText? false rest
      let suffix := handle.drop 1 ++ more
      if suffix = [] then pure ([], ['!'], rest) else pure (['!'], suffix, rest)

inductive Directive where
  | version (major minor : Nat)
  /-- What a tag handle stands for. -/
  | tagHandle (handle expansion : Text)
  deriving DecidableEq, Repr

/-- A number of at most nine digits at the head of the text, and the text after it. -/
def readNumber? (t : Text) : Option (Nat × Text) :=
  let digits := t.takeWhile Char.isDigit
  if digits = [] || 9 < digits.length then none
  else some (digits.foldl (fun n c => n * 10 + (c.toNat - 48)) 0, t.dropWhile Char.isDigit)

/-- The directive after a percent sign at the head of the text, and the text after it. -/
def readDirective? (t : Text) : Option (Directive × Text) := do
  let name := t.takeWhile isName
  let rest := t.dropWhile isName
  if !endsWord rest.head? then none
  else
    let rest := rest.dropWhile isSpace
    let (directive, rest) ←
      if name = "YAML".toList then do
        let (major, rest) ← readNumber? rest
        match rest with
        | '.' :: rest => do
          let (minor, rest) ← readNumber? rest
          pure (Directive.version major minor, rest)
        | _ => none
      else if name = "TAG".toList then do
        let (handle, rest) ← readHandle? rest
        if handle != ['!'] && handle.getLast? != some '!' then none
        else if !rest.head?.any isSpace then none
        else
          let (expansion, rest) ← readTagText? true (rest.dropWhile isSpace)
          if expansion = [] || !endsWord rest.head? then none
          else pure (Directive.tagHandle handle expansion, rest)
      else none
    let rest := rest.dropWhile isSpace
    let rest := if rest.head? == some '#' then rest.dropWhile fun c => !isBreak c else rest
    if endsLine rest.head? then pure (directive, rest) else none

end Template.Yaml
