import Template.Text.Basic

/-! # Pieces

While markup is rewritten it is held as pieces: text that tags are still looked for in, with
its place in the template, and output that is final.
-/

namespace Template

/-- A stretch of the markup being rewritten. -/
inductive Piece where
  /-- Text not taken by any tag yet, at a byte position of the template. -/
  | markup (text : Text) (offset : Nat)
  | output (text : Text)
  deriving DecidableEq, Repr

namespace Piece

def text : Piece → Text
  | markup text _ => text
  | output text => text

/-- The text of the pieces put together. -/
def joined (pieces : List Piece) : Text := pieces.flatMap text

@[simp] theorem joined_nil : joined [] = [] := rfl

@[simp] theorem joined_cons (p : Piece) (ps : List Piece) :
    joined (p :: ps) = p.text ++ joined ps := rfl

@[simp] theorem joined_append (ps qs : List Piece) :
    joined (ps ++ qs) = joined ps ++ joined qs := by
  simp [joined]

/-- Markup, if the text is not empty. -/
def ofMarkup (text : Text) (offset : Nat) : List Piece :=
  if text = [] then [] else [markup text offset]

@[simp] theorem joined_ofMarkup (text : Text) (offset : Nat) :
    joined (ofMarkup text offset) = text := by
  unfold ofMarkup
  split <;> simp_all [Piece.text]

theorem eq_of_mem_ofMarkup {text : Text} {offset : Nat} {p : Piece} (h : p ∈ ofMarkup text offset) :
    p = markup text offset := by
  unfold ofMarkup at h
  split at h
  · cases h
  · exact List.mem_singleton.1 h

/-- The markup among the pieces: each text with its place. -/
def markups (pieces : List Piece) : List (Text × Nat) :=
  pieces.filterMap fun
    | markup text offset => some (text, offset)
    | output _ => none

theorem mem_markups {pieces : List Piece} {text : Text} {offset : Nat} :
    (text, offset) ∈ markups pieces ↔ .markup text offset ∈ pieces := by
  unfold markups
  rw [List.mem_filterMap]
  constructor
  · rintro ⟨p, hp, heq⟩
    cases p with
    | markup t o =>
      cases heq
      exact hp
    | output => cases heq
  · intro h
    exact ⟨_, h, rfl⟩

end Piece

end Template
