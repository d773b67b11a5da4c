import Template.Config
import Template.Echo.Tag
import Template.Piece

/-! # Echo passes

Echo tags are rewritten into code in three passes over the pieces, one for each family: raw,
escaped, regular. What a pass has written is final and no later pass looks into it. When all
have run, an opening marker still in markup without a closing marker after it is an error.
-/

namespace Template

inductive EchoFamily where
  | raw
  | escaped
  /-- The expression in the echo format. -/
  | regular
  deriving DecidableEq, Repr

/-- The echo family among all tag families. -/
def EchoFamily.kind : EchoFamily → TagKind
  | raw => .rawEcho
  | escaped => .escapedEcho
  | regular => .regularEcho

/-- Code that echoes a value. The line break after a tag is written twice, since the code's
    closing mark takes the first. -/
def echoCode (value lineBreak : Text) : Text :=
  "<?php echo ".toList ++ value ++ "; ?>".toList ++ lineBreak ++ lineBreak

/-- The markers of the three echo families and the echo format. -/
structure EchoPasses where
  raw : Markers
  escaped : Markers
  regular : Markers
  format : Text
  deriving DecidableEq, Repr

namespace EchoPasses

/-- The passes of a configuration, unless the limit rules one of its pairs out. -/
def build (limit : Markers.Limit) (config : Config) : Except TranspileError EchoPasses := do
  let raw ← Markers.build limit .rawEcho config.rawTags
  let escaped ← Markers.build limit .escapedEcho config.escapedTags
  let regular ← Markers.build limit .regularEcho config.contentTags
  pure ⟨raw, escaped, regular, config.echoFormat⟩

def markers (passes : EchoPasses) : EchoFamily → Markers
  | .raw => passes.raw
  | .escaped => passes.escaped
  | .regular => passes.regular

/-- The value that a family echoes for an expression. -/
def value (passes : EchoPasses) (family : EchoFamily) (expression : Text) : Text :=
  match family with
  | .raw => expression
  | .escaped => "e(".toList ++ expression ++ ")".toList
  | .regular => Text.replaceFirst echoPlaceholder expression passes.format

/-- What a pass puts in the place of a tag. A tag behind the escape marker becomes literal
    text, except that the escaped family leaves it whole for the regular family to look at. -/
def rewriteTag (passes : EchoPasses) (family : EchoFamily) (offset : Nat) (tag : EchoTag) : Piece :=
  if tag.escaped then
    match family with
    | .escaped => .markup (tag.source passes.escaped) offset
    | .raw | .regular => .output (tag.unescaped (passes.markers family))
  else .output (echoCode (passes.value family tag.expression) tag.lineBreak)

/-- The pieces of a list of tags, with the text around them as markup in its place. -/
def rewriteTags (passes : EchoPasses) (family : EchoFamily) (offset : Nat) :
    List (Text × EchoTag) → (last : Text) → List Piece
  | [], last => Piece.ofMarkup last offset
  | (before, tag) :: parts, last =>
    let start := offset + Text.byteLength before
    let next := start + Text.byteLength (tag.source (passes.markers family))
    Piece.ofMarkup before offset ++
      passes.rewriteTag family start tag :: passes.rewriteTags family next parts last

def rewritePiece (passes : EchoPasses) (family : EchoFamily) : Piece → List Piece
  | .markup text offset =>
    let (parts, last) := (passes.markers family).splitTags text
    passes.rewriteTags family offset parts last
  | .output text => [.output text]

def pass (passes : EchoPasses) (family : EchoFamily) (pieces : List Piece) : List Piece :=
  pieces.flatMap (passes.rewritePiece family)

/-- The three passes over the pieces. -/
def rewrite (passes : EchoPasses) (pieces : List Piece) : List Piece :=
  passes.pass .regular (passes.pass .escaped (passes.pass .raw pieces))

end EchoPasses

namespace Markers

/-- The first place of the opening marker, read left to right, that no closing marker follows
    in the text. The result counts from `position` on. -/
def firstUnclosed? (markers : Markers) (position : Nat) (t : Text) : Option Nat :=
  match _h : Text.cut? markers.opening t with
  | none => none
  | some (before, after) =>
    let here := position + Text.byteLength before
    if Text.contains markers.closing after then
      firstUnclosed? markers (here + Text.byteLength markers.opening) after
    else some here
termination_by t.length
decreasing_by exact Text.length_after_lt markers.opening_ne_nil _h

/-- The first place of the opening marker that no closing marker follows, neither in the text
    nor in the markup after it. -/
def unterminated? (markers : Markers) (t : Text) (later : List (Text × Nat)) : Option Nat :=
  if later.any fun (text, _) => Text.contains markers.closing text then none
  else markers.firstUnclosed? 0 t

end Markers

namespace EchoPasses

/-- The families in the order their markers are looked for. -/
def families : List EchoFamily := [.raw, .escaped, .regular]

/-- The earliest unterminated tag of a text, the first family in order if two start at the
    same place. -/
def unterminated? (passes : EchoPasses) (t : Text) (later : List (Text × Nat)) :
    Option (Nat × TagKind) :=
  families.foldl (fun first family =>
    match (passes.markers family).unterminated? t later with
    | none => first
    | some position =>
      if first.all fun (earlier, _) => position < earlier then some (position, family.kind)
      else first) none

/-- Fails at the earliest unterminated tag of the markup. -/
def checkTerminated (passes : EchoPasses) : List (Text × Nat) → Except TranspileError Unit
  | [] => .ok ()
  | (text, offset) :: later =>
    match passes.unterminated? text later with
    | some (position, kind) => .error (.unterminatedTag kind (offset + position))
    | none => passes.checkTerminated later

/-- The text of the pieces after all passes. -/
def transpilePieces (passes : EchoPasses) (pieces : List Piece) : Except TranspileError Text := do
  let done := passes.rewrite pieces
  passes.checkTerminated (Piece.markups done)
  pure (Piece.joined done)

/-- The text after all passes, for text that starts at a byte position of the template. -/
def transpile (passes : EchoPasses) (text : Text) (offset : Nat) : Except TranspileError Text :=
  passes.transpilePieces [.markup text offset]

end EchoPasses

end Template
