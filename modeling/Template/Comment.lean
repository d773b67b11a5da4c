import Template.Error

/-! # Comments

A comment runs from an opening marker to the first closing marker after it. Comments are
dropped; an opening marker without a closing one is an error at its place.
-/

namespace Template

/-- Markers of a tag family that can be searched for: the opening one is not empty. -/
structure Markers where
  opening : Text
  closing : Text
  /-- Every tag takes at least one character. -/
  opening_ne_nil : opening ≠ []
  deriving DecidableEq, Repr

namespace Markers

/-- The pair the markers were made from. -/
def pair (markers : Markers) : TagPair := ⟨markers.opening, markers.closing⟩

/-- Which markers a search can be built for. Searching is exact whatever they are; a limit on
    their size may rule some out. -/
abbrev Limit := TagKind → TagPair → Bool

/-- The limit that holds unless another is asked for: together the markers of a family take
    fewer than 300000 bytes. -/
def standardLimit : Limit := fun _ pair =>
  pair.opening.byteLength + pair.closing.byteLength < 300000

/-- Markers for the family, unless the limit rules the pair out. -/
def build (limit : Limit) (kind : TagKind) (pair : TagPair) : Except TranspileError Markers :=
  if h : pair.opening = [] then .error (.pattern kind)
  else if limit kind pair then .ok ⟨pair.opening, pair.closing, h⟩
  else .error (.pattern kind)

theorem pair_of_build {limit : Limit} {kind : TagKind} {pair : TagPair} {markers : Markers}
    (h : build limit kind pair = .ok markers) : markers.pair = pair := by
  unfold build at h
  split at h
  · cases h
  · split at h <;> cases h
    rfl

/-- The text without its comments. `offset` is its byte position in the template. -/
def stripComments (markers : Markers) (offset : Nat) (t : Text) : Except TranspileError Text :=
  match _hopen : Text.cut? markers.opening t with
  | none => .ok t
  | some (before, inside) =>
    match _hclose : Text.cut? markers.closing inside with
    | none => .error (.unterminatedTag .comment (offset + Text.byteLength before))
    | some (comment, after) =>
      let next := offset + Text.byteLength before + Text.byteLength markers.opening +
        Text.byteLength comment + Text.byteLength markers.closing
      (before ++ ·) <$> stripComments markers next after
termination_by t.length
decreasing_by
  have hlt := Text.length_after_lt markers.opening_ne_nil _hopen
  rw [Text.cut?_eq_some _hclose] at hlt
  simp only [List.length_append] at hlt
  omega

end Markers

end Template
