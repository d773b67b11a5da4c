import Template.Yaml.Character

/-! # Scalars of YAML

The three ways to write a scalar: plain, quoted, and as a block of lines. Each reader takes the
text from the first character of the scalar's content and gives the value with the place and
the text after it, or nothing when the scalar is malformed.
-/

namespace Template.Yaml

/-- White space between two words of a scalar. A single line break between them folds into a
    space. -/
structure Gap where
  /-- Whether a line break was read, and spaces are indentation now. -/
  broken : Bool
  /-- Spaces and tabs before the first line break. -/
  spaces : Text
  firstBreak : Text
  moreBreaks : Text
  deriving DecidableEq, Repr

namespace Gap

def none : Gap := ⟨false, [], [], []⟩

/-- An escaped line break: it stands for nothing. -/
def escaped : Gap := ⟨true, [], [], []⟩

/-- The gap with one more space or tab. -/
def addSpace (gap : Gap) (c : Char) : Gap :=
  if gap.broken then gap else { gap with spaces := gap.spaces ++ [c] }

/-- The gap with one more line break. -/
def addBreak (gap : Gap) (c : Char) : Gap :=
  if gap.broken then { gap with moreBreaks := gap.moreBreaks ++ breakText c }
  else ⟨true, [], breakText c, []⟩

def fold (gap : Gap) : Text :=
  if !gap.broken then gap.spaces
  else if gap.firstBreak = ['\n'] then
    if gap.moreBreaks = [] then [' '] else gap.moreBreaks
  else gap.firstBreak ++ gap.moreBreaks

end Gap

/-- A plain scalar as it was read. -/
structure PlainScalar where
  value : Text
  /-- Whether the reader stopped on a later line. -/
  broken : Bool
  mark : Mark
  rest : Text
  deriving DecidableEq, Repr

/-- Reads a plain scalar, `reversed` being its value so far. `inWord` tells whether the last
    character belongs to it. Outside brackets the lines after the first are indented by at
    least `indent`. -/
def readPlain (inBrackets : Bool) (indent : Int) (inWord : Bool) (gap : Gap) (reversed : Text) :
    Mark → Text → Option PlainScalar
  | mark, [] => some ⟨reversed.reverse, gap.broken, mark, []⟩
  | mark, c :: t =>
    let stop := some ⟨reversed.reverse, gap.broken, mark, c :: t⟩
    if isSpace c then
      if gap.broken && mark.column < indent && c = '\t' then none
      else readPlain inBrackets indent false (gap.addSpace c) reversed (mark.advance 1) t
    else if isPairedBreak c t.head? then
      readPlain inBrackets indent false gap reversed (mark.advance 1) t
    else if isBreak c then
      readPlain inBrackets indent false (gap.addBreak c) reversed mark.newLine t
    else if !inWord && ((!inBrackets && gap != .none && mark.column < indent) ||
        isDocumentMark mark (c :: t) || c = '#') then stop
    else if inBrackets && c = ':' && t.head?.any (",?[]\x7b\x7d".toList.contains ·) then none
    else if (c = ':' && endsWord t.head?) || (inBrackets && ",[]\x7b\x7d".toList.contains c) then
      stop
    else
      readPlain inBrackets indent true .none (c :: (gap.fold.reverse ++ reversed))
        (mark.advance 1) t

/-- Where a reader of a quoted scalar stands. -/
inductive QuotedMode where
  | text
  /-- After the first of two quotes that stand for one. -/
  | doubled
  | escape
  /-- In a code point of so many more digits, with its value so far. -/
  | code (digits value : Nat)
  deriving DecidableEq, Repr

/-- The character that a backslash and a letter stand for. -/
def shortEscape? (c : Char) : Option Char :=
  [('0', '\x00'), ('a', '\x07'), ('b', '\x08'), ('t', '\t'), ('\t', '\t'), ('n', '\n'),
   ('v', '\x0b'), ('f', '\x0c'), ('r', '\r'), ('e', '\x1b'), (' ', ' '), ('"', '"'), ('/', '/'),
   ('\\', '\\'), ('N', '\x85'), ('_', '\xa0'), ('L', '\u2028'), ('P', '\u2029')].lookup c

/-- Number of digits after a backslash and a letter for a code point. -/
def codeDigits? (c : Char) : Option Nat := [('x', 2), ('u', 4), ('U', 8)].lookup c

/-- Reads a quoted scalar up to and with its closing quote, `reversed` being its value so
    far. -/
def readQuoted (single : Bool) (mode : QuotedMode) (gap : Gap) (reversed : Text) :
    Mark → Text → Option (Text × Mark × Text)
  | _, [] => none
  | mark, c :: t =>
    let next := mark.advance 1
    match mode with
    | .doubled => readQuoted single .text .none ('\'' :: reversed) next t
    | .code digits value =>
      match hexDigit? c, digits with
      | some digit, 1 =>
        let n := value * 16 + digit
        if n.isValidChar then readQuoted single .text .none (Char.ofNat n :: reversed) next t
        else none
      | some digit, digits =>
        readQuoted single (.code (digits - 1) (value * 16 + digit)) .none reversed next t
      | none, _ => none
    | .escape =>
      if isPairedBreak c t.head? then readQuoted single .escape .none reversed next t
      else if isBreak c then readQuoted single .text .escaped reversed mark.newLine t
      else
        match shortEscape? c, codeDigits? c with
        | some d, _ => readQuoted single .text .none (d :: reversed) next t
        | none, some digits => readQuoted single (.code digits 0) .none reversed next t
        | none, none => none
    | .text =>
      if isSpace c then readQuoted single .text (gap.addSpace c) reversed next t
      else if isPairedBreak c t.head? then readQuoted single .text gap reversed next t
      else if isBreak c then readQuoted single .text (gap.addBreak c) reversed mark.newLine t
      else if isDocumentMark mark (c :: t) then none
      else
        let reversed := gap.fold.reverse ++ reversed
        if single then
          if c = '\'' then
            if t.head? == some '\'' then readQuoted single .doubled .none reversed next t
            else some (reversed.reverse, next, t)
          else readQuoted single .text .none (c :: reversed) next t
        else if c = '"' then some (reversed.reverse, next, t)
        else if c = '\\' then readQuoted single .escape .none reversed next t
        else readQuoted single .text .none (c :: reversed) next t

/-- What happens to the line breaks at the end of a block. -/
inductive Chomp where
  | strip
  /-- The last line keeps its own. -/
  | clip
  | keep
  deriving DecidableEq, Repr

/-- The first line of a block. -/
structure BlockHeader where
  /-- The fate of its last line breaks. -/
  chomp : Chomp
  /-- Indentation of its lines beyond the surrounding one, if it is stated. -/
  increment : Option Nat
  deriving DecidableEq, Repr

/-- The chomping mark at the head of the text, and the text after it. -/
def readChomp : Text → Option (Chomp × Text)
  | '+' :: t => some (.keep, t)
  | '-' :: t => some (.strip, t)
  | _ => none

/-- The indentation digit at the head of the text, and the text after it; nothing for zero. -/
def readIncrement : Text → Option (Option Nat × Text)
  | c :: t =>
    if c = '0' then none
    else if c.isDigit then some (some (c.toNat - 48), t)
    else some (none, c :: t)
  | [] => some (none, [])

/-- Reads the marks after the indicator of a block, and the rest of their line without its
    line break. -/
def readBlockHeader (t : Text) : Option (BlockHeader × Text) := do
  let (header, t) ←
    match readChomp t with
    | some (chomp, t) => do
      let (increment, t) ← readIncrement t
      pure (⟨chomp, increment⟩, t)
    | none => do
      let (increment, t) ← readIncrement t
      match increment.bind fun _ => readChomp t with
      | some (chomp, t) => pure (⟨chomp, increment⟩, t)
      | none => pure (⟨.clip, increment⟩, t)
  let t := t.dropWhile isSpace
  let t := if t.head? == some '#' then t.dropWhile fun c => !isBreak c else t
  if endsLine t.head? then some (header, t) else none

/-- What was read of a block before the line or the spaces at hand. -/
structure Block where
  /-- Indentation of its lines, once it is known. -/
  indent : Option Nat
  widest : Nat
  /-- The value so far, last character first. -/
  reversed : Text
  /-- The line break of the last line with text. -/
  lastBreak : Text
  moreBreaks : Text
  /-- Whether the last line with text starts with a space. -/
  spaced : Bool
  deriving DecidableEq, Repr

namespace Block

/-- The block with the line that starts with `c` begun. In a folded block a line break between
    two lines that start with text becomes a space, or nothing if empty lines follow it. -/
def beginLine (literal : Bool) (block : Block) (c : Char) : Block :=
  let spaced := isSpace c
  let between :=
    if !literal && block.lastBreak = ['\n'] && !block.spaced && !spaced then
      if block.moreBreaks = [] then [' '] else block.moreBreaks
    else block.lastBreak ++ block.moreBreaks
  { block with
    reversed := between.reverse ++ block.reversed
    lastBreak := [], moreBreaks := [], spaced }

def value (chomp : Chomp) (block : Block) : Text :=
  block.reversed.reverse ++
    match chomp with
    | .strip => []
    | .clip => block.lastBreak
    | .keep => block.lastBreak ++ block.moreBreaks

end Block

/-- Reads the lines of a block. `inLine` tells whether the last character belongs to a line
    with text; the lines are indented by at least `least` if their indentation is not known. -/
def readBlock (literal : Bool) (chomp : Chomp) (least : Nat) (inLine : Bool) (block : Block) :
    Mark → Text → Option (Text × Mark × Text)
  | mark, [] => some (block.value chomp, mark, [])
  | mark, c :: t =>
    if isPairedBreak c t.head? then
      readBlock literal chomp least inLine block (mark.advance 1) t
    else if inLine then
      if isBreak c then
        readBlock literal chomp least false { block with lastBreak := breakText c } mark.newLine t
      else
        readBlock literal chomp least true { block with reversed := c :: block.reversed }
          (mark.advance 1) t
    else if block.indent.all (mark.column < ·) && c = ' ' then
      readBlock literal chomp least false block (mark.advance 1) t
    else if block.indent.all (mark.column < ·) && c = '\t' then none
    else
      let block := { block with widest := max block.widest mark.column }
      if isBreak c then
        readBlock literal chomp least false
          { block with moreBreaks := block.moreBreaks ++ breakText c } mark.newLine t
      else
        let indent := block.indent.getD (max block.widest least)
        if mark.column = indent then
          let block := { block with indent := some indent }.beginLine literal c
          readBlock literal chomp least true { block with reversed := c :: block.reversed }
            (mark.advance 1) t
        else some (block.value chomp, mark, c :: t)

end Template.Yaml
