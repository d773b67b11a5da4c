import Template.Yaml.Scalar
import Template.Yaml.Tag
import Template.Yaml.Token

/-! # Tokens of a stream

A stream is read token by token. A key is known for one only when its colon comes: until then
the place where it started is remembered, one place for each open bracket, and the token that
says "a key follows" is put in there later. Outside brackets, indentation opens and closes
collections.
-/

namespace Template.Yaml

/-- A token that may turn out to be the start of a key. -/
structure PossibleKey where
  /-- Whether it has to be one. -/
  required : Bool
  position : Nat
  mark : Mark
  deriving DecidableEq, Repr

/-- A stream that is being read. -/
structure Scan where
  rest : Text
  mark : Mark
  /-- The tokens so far, last one first. -/
  tokens : List Token
  /-- The possible key in the innermost brackets, or outside all. -/
  possible : Option PossibleKey
  /-- The possible keys around it, one for each open bracket. -/
  outer : List (Option PossibleKey)
  /-- Column of the innermost block collection, or -1 outside all. -/
  indent : Int
  /-- Columns of the block collections around it. -/
  indents : List Int
  /-- Whether a key may start here. -/
  keyAllowed : Bool
  deriving Repr

namespace Scan

def start (t : Text) : Scan := ⟨t, .start, [], none, [], -1, [], true⟩

/-- Whether the place is inside brackets. -/
def inBrackets (scan : Scan) : Bool := !scan.outer.isEmpty

/-- The stream with a token added. -/
def push (scan : Scan) (token : Token) : Scan := { scan with tokens := token :: scan.tokens }

/-- The stream with a token put in after the first `position` tokens. -/
def insertAt (scan : Scan) (position : Nat) (token : Token) : Scan :=
  { scan with tokens := scan.tokens.insertIdx (scan.tokens.length - position) token }

/-- The stream after `n` characters of the line. -/
def skip (scan : Scan) (n : Nat) : Scan :=
  { scan with rest := scan.rest.drop n, mark := scan.mark.advance n }

/-- The stream at a later text in the same line. -/
def moveTo (scan : Scan) (rest : Text) : Scan :=
  { scan with rest, mark := scan.mark.advance (scan.rest.length - rest.length) }

/-- The stream after a line break, if one comes next. -/
def skipBreak (scan : Scan) : Scan :=
  match scan.rest with
  | '\r' :: '\n' :: rest => { scan with rest, mark := (scan.mark.advance 1).newLine }
  | c :: rest => if isBreak c then { scan with rest, mark := scan.mark.newLine } else scan
  | [] => scan

/-- Skips white space, comments and line breaks up to the next token. A tab is white space
    only where no key may start; outside brackets, a line break lets a key start. -/
def skipBlanks (inBrackets : Bool) : (inComment keyAllowed : Bool) → Mark → Text → Bool × Mark × Text
  | _, keyAllowed, mark, [] => (keyAllowed, mark, [])
  | inComment, keyAllowed, mark, c :: t =>
    if isPairedBreak c t.head? then
      skipBlanks inBrackets inComment keyAllowed (mark.advance 1) t
    else if isBreak c then
      skipBlanks inBrackets false (keyAllowed || !inBrackets) mark.newLine t
    else if inComment || c = ' ' || c = '#' || (c = '\uFEFF' && mark.column = 0) ||
        (c = '\t' && (inBrackets || !keyAllowed)) then
      skipBlanks inBrackets (inComment || c = '#') keyAllowed (mark.advance 1) t
    else (keyAllowed, mark, c :: t)

/-- The stream at its next token. -/
def toToken (scan : Scan) : Scan :=
  let (keyAllowed, mark, rest) := skipBlanks scan.inBrackets false scan.keyAllowed scan.mark scan.rest
  { scan with keyAllowed, mark, rest }

/-- Whether a possible key can no longer be one: it must be on this line and near. -/
def isStale (scan : Scan) (key : PossibleKey) : Bool :=
  key.mark.line < scan.mark.line || key.mark.index + 1024 < scan.mark.index

/-- A possible key that still can be one; fails if it has to be one and cannot. -/
def refresh? (scan : Scan) : Option PossibleKey → Option (Option PossibleKey)
  | none => some none
  | some key =>
    if scan.isStale key then (if key.required then none else some none) else some (some key)

/-- The stream without the possible keys that can no longer be one. -/
def dropStale (scan : Scan) : Option Scan := do
  let possible ← scan.refresh? scan.possible
  let outer ← scan.outer.mapM scan.refresh?
  pure { scan with possible, outer }

/-- The stream without its possible key; fails if that has to be one. -/
def dropKey (scan : Scan) : Option Scan :=
  if scan.possible.any (·.required) then none else some { scan with possible := none }

/-- The stream with the next token as a possible key, where a key may start. At the column of a
    block collection it has to be one. -/
def saveKey (scan : Scan) : Option Scan :=
  if scan.keyAllowed then do
    let required := !scan.inBrackets && scan.indent = scan.mark.column
    let scan ← scan.dropKey
    pure { scan with possible := some ⟨required, scan.tokens.length, scan.mark⟩ }
  else some scan

/-- Whether a block collection is opened at a column. -/
def opensAt (scan : Scan) (column : Nat) : Bool := !scan.inBrackets && scan.indent < column

/-- The stream with the indentation of a block collection that is opened at a column. -/
def indentTo (scan : Scan) (column : Nat) : Scan :=
  { scan with indent := column, indents := scan.indent :: scan.indents }

/-- Opens a block collection here, if this column is deeper than the last one. -/
def openBlock (scan : Scan) (token : Token) : Scan :=
  if scan.opensAt scan.mark.column then (scan.indentTo scan.mark.column).push token else scan

/-- Closes the block collections deeper than `column`. -/
def closeBlocks (column : Int) (scan : Scan) : Scan :=
  if scan.inBrackets then scan else close scan.indents scan
where
  /-- Closes them one by one, the columns around the innermost one given. -/
  close : List Int → Scan → Scan
    | [], scan => scan
    | outer :: indents, scan =>
      if column < scan.indent then
        close indents { scan.push .blockEnd with indent := outer, indents }
      else scan

def directive (scan : Scan) : Option Scan := do
  let scan ← (scan.closeBlocks (-1)).dropKey
  let (directive, rest) ← readDirective? (scan.rest.drop 1)
  let token := match directive with
    | .version major minor => Token.version major minor
    | .tagHandle handle expansion => .tagHandle handle expansion
  pure ({ scan with keyAllowed := false }.push token |>.moveTo rest).skipBreak

/-- Reads a mark that divides documents. -/
def documentMark (scan : Scan) (token : Token) : Option Scan := do
  let scan ← (scan.closeBlocks (-1)).dropKey
  pure ({ scan with keyAllowed := false }.push token |>.skip 3)

def openBracket (scan : Scan) (token : Token) : Option Scan := do
  let scan ← scan.saveKey
  pure ({ scan with
    outer := scan.possible :: scan.outer, possible := none, keyAllowed := true }.push token
    |>.skip 1)

def closeBracket (scan : Scan) (token : Token) : Option Scan := do
  let scan ← scan.dropKey
  let scan := match scan.outer with
    | possible :: outer => { scan with possible, outer }
    | [] => scan
  pure ({ scan with keyAllowed := false }.push token |>.skip 1)

def comma (scan : Scan) : Option Scan := do
  let scan ← scan.dropKey
  pure ({ scan with keyAllowed := true }.push .flowEntry |>.skip 1)

/-- Reads the dash of an item. -/
def dash (scan : Scan) : Option Scan := do
  if !scan.inBrackets && !scan.keyAllowed then none
  else
    let scan ← (scan.openBlock .blockSequenceStart).dropKey
    pure ({ scan with keyAllowed := true }.push .blockEntry |>.skip 1)

/-- Reads the question mark of a key. -/
def question (scan : Scan) : Option Scan := do
  if !scan.inBrackets && !scan.keyAllowed then none
  else
    let scan ← (scan.openBlock .blockMappingStart).dropKey
    pure ({ scan with keyAllowed := !scan.inBrackets }.push .key |>.skip 1)

/-- Reads the colon of a value: the possible key before it is a key now. -/
def colon (scan : Scan) : Option Scan := do
  match scan.possible with
  | some key =>
    let scan := scan.insertAt key.position .key
    let scan :=
      if scan.opensAt key.mark.column then
        (scan.indentTo key.mark.column).insertAt key.position .blockMappingStart
      else scan
    pure ({ scan with possible := none, keyAllowed := false }.push .value |>.skip 1)
  | none =>
    if !scan.inBrackets && !scan.keyAllowed then none
    else
      let scan := scan.openBlock .blockMappingStart
      pure ({ scan with keyAllowed := !scan.inBrackets }.push .value |>.skip 1)

/-- Reads the name after the mark of an anchor or an alias. -/
def name (scan : Scan) (token : Text → Token) : Option Scan := do
  let scan ← scan.saveKey
  let text := (scan.rest.drop 1).takeWhile isName
  let rest := (scan.rest.drop 1).dropWhile isName
  if text = [] then none
  else if endsWord rest.head? || rest.head?.any ("?:,]\x7d%@".toList.contains ·) ||
      rest.head? == some (Char.ofNat 96) then
    pure ({ scan with keyAllowed := false }.push (token text) |>.moveTo rest)
  else none

def tag (scan : Scan) : Option Scan := do
  let scan ← scan.saveKey
  let (handle, suffix, rest) ← readTag? scan.rest
  if endsWord rest.head? || (scan.inBrackets && rest.head? == some ',') then
    pure ({ scan with keyAllowed := false }.push (.tag handle suffix) |>.moveTo rest)
  else none

def block (scan : Scan) (literal : Bool) : Option Scan := do
  let scan ← scan.dropKey
  let (header, rest) ← readBlockHeader (scan.rest.drop 1)
  let scan := ({ scan with keyAllowed := true }.moveTo rest).skipBreak
  let surrounding := scan.indent.toNat
  let (text, mark, rest) ← readBlock literal header.chomp (max (scan.indent + 1).toNat 1) false
    ⟨header.increment.map (surrounding + ·), 0, [], [], [], false⟩ scan.mark scan.rest
  pure ({ scan with mark, rest }.push (.scalar false text))

def quoted (scan : Scan) (single : Bool) : Option Scan := do
  let scan ← scan.saveKey
  let scan := { scan with keyAllowed := false }.skip 1
  let (text, mark, rest) ← readQuoted single .text .none [] scan.mark scan.rest
  pure ({ scan with mark, rest }.push (.scalar false text))

def plain (scan : Scan) : Option Scan := do
  let scan ← scan.saveKey
  let scalar ← readPlain scan.inBrackets (scan.indent + 1) false .none [] scan.mark scan.rest
  pure ({ scan with mark := scalar.mark, rest := scalar.rest, keyAllowed := scalar.broken }.push
    (.scalar true scalar.value))

/-- Whether a plain scalar may start with `c` before `next`. -/
def startsPlain (inBrackets : Bool) (c : Char) (next : Option Char) : Bool :=
  !(isSpace c || isBreak c || "-?:,[]\x7b\x7d#&*!|>'\"%@".toList.contains c || c.toNat = 96) ||
    (c = '-' && !next.any isSpace) || (!inBrackets && (c = '?' || c = ':') && !endsWord next)

def token (scan : Scan) : Option Scan :=
  match scan.rest with
  | [] => none
  | c :: t =>
    let next := t.head?
    if c = '%' && scan.mark.column = 0 then scan.directive
    else if isDocumentMark scan.mark scan.rest then
      scan.documentMark (if c = '-' then .documentStart else .documentEnd)
    else if c = '[' then scan.openBracket .flowSequenceStart
    else if c = '\x7b' then scan.openBracket .flowMappingStart
    else if c = ']' then scan.closeBracket .flowSequenceEnd
    else if c = '\x7d' then scan.closeBracket .flowMappingEnd
    else if c = ',' then scan.comma
    else if c = '-' && endsWord next then scan.dash
    else if c = '?' && (scan.inBrackets || endsWord next) then scan.question
    else if c = ':' && (scan.inBrackets || endsWord next) then scan.colon
    else if c = '*' then scan.name .alias
    else if c = '&' then scan.name .anchor
    else if c = '!' then scan.tag
    else if c = '|' && !scan.inBrackets then scan.block true
    else if c = '>' && !scan.inBrackets then scan.block false
    else if c = '\'' then scan.quoted true
    else if c = '"' then scan.quoted false
    else if startsPlain scan.inBrackets c next then scan.plain
    else none

/-- Reads at most `fuel` tokens, and gives all tokens once the stream is at its end. -/
def run : (fuel : Nat) → Scan → Option (List Token)
  | 0, _ => none
  | fuel + 1, scan => do
    let scan ← scan.toToken.dropStale
    if scan.rest = [] then
      let scan ← (scan.closeBlocks (-1)).dropKey
      pure scan.tokens.reverse
    else
      let scan ← (scan.closeBlocks scan.mark.column).token
      run fuel scan

end Scan

/-- The tokens of a stream, unless it holds a character or a token that is not allowed. Every
    token takes a character at least, so there are no more of them than characters. -/
def tokens? (t : Text) : Option (List Token) :=
  if t.all isAllowed then (Scan.start t).run (t.length + 1) else none

end Template.Yaml
