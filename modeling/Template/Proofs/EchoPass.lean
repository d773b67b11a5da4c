import Template.Echo.Passes
import Template.Proofs.EchoTag

/-! # Echo passes over markup

A pass works on each piece by itself. What it makes of markup follows the tags of its family
from left to right, and markup in which no opening marker is left passes the check for
unterminated tags.
-/

namespace Template.EchoPasses

section

variable {passes : EchoPasses} {family : EchoFamily} {t before rest : Text} {tag : EchoTag}

@[simp] theorem pass_nil : passes.pass family [] = [] := rfl

@[simp] theorem pass_append (pieces more : List Piece) :
    passes.pass family (pieces ++ more) = passes.pass family pieces ++ passes.pass family more := by
  simp [pass]

@[simp] theorem pass_output_cons (pieces : List Piece) :
    passes.pass family (.output t :: pieces) = .output t :: passes.pass family pieces := rfl

theorem pass_ofMarkup (t : Text) (offset : Nat) :
    passes.pass family (Piece.ofMarkup t offset) =
      passes.rewriteTags family offset ((passes.markers family).splitTags t).1
        ((passes.markers family).splitTags t).2 := by
  unfold Piece.ofMarkup
  split
  case isTrue ht =>
    subst ht
    rw [Markers.splitTags_of_none rfl]
    rfl
  case isFalse => exact List.append_nil _

theorem pass_ofMarkup_of_none (offset : Nat)
    (h : (passes.markers family).nextTag? t = none) :
    passes.pass family (Piece.ofMarkup t offset) = Piece.ofMarkup t offset := by
  rw [pass_ofMarkup, Markers.splitTags_of_none h]
  rfl

theorem pass_ofMarkup_of_some (offset : Nat)
    (h : (passes.markers family).nextTag? t = some (before, tag, rest)) :
    ∃ start next, passes.pass family (Piece.ofMarkup t offset) =
      Piece.ofMarkup before offset ++ passes.rewriteTag family start tag ::
        passes.pass family (Piece.ofMarkup rest next) := by
  refine ⟨offset + Text.byteLength before, offset + Text.byteLength before +
    Text.byteLength (tag.source (passes.markers family)), ?_⟩
  rw [pass_ofMarkup, Markers.splitTags_of_some h, pass_ofMarkup]
  rfl

end

end Template.EchoPasses

namespace Template.Markers

/-- Every opening marker in the text has a closing marker somewhere after it. -/
def Closes (markers : Markers) (t : Text) : Prop :=
  ∀ before after, t = before ++ markers.opening ++ after → markers.closing <:+: after

section

variable {markers : Markers} {t : Text}

theorem closes_of_not_infix (h : ¬ markers.opening <:+: t) : markers.Closes t := by
  rintro before after rfl
  exact absurd ⟨before, after, rfl⟩ h

theorem firstUnclosed?_eq_none (h : markers.Closes t) (position : Nat) :
    markers.firstUnclosed? position t = none := by
  fun_induction firstUnclosed? markers position t with
  | case1 => rfl
  | case2 position t before after hcut here hcontains ih =>
    refine ih fun front back hafter => ?_
    subst hafter
    refine h (before ++ markers.opening ++ front) back ?_
    rw [Text.cut?_eq_some hcut]
    simp only [List.append_assoc]
  | case3 position t before after hcut here hcontains =>
    exact absurd (Text.contains_iff.2 (h before after (Text.cut?_eq_some hcut))) hcontains

theorem unterminated?_eq_none (h : markers.Closes t) (later : List (Text × Nat)) :
    markers.unterminated? t later = none := by
  unfold unterminated?
  split
  · rfl
  · exact firstUnclosed?_eq_none h 0

end

end Template.Markers

namespace Template.EchoPasses

variable {passes : EchoPasses}

theorem checkTerminated_of_closes {markups : List (Text × Nat)}
    (h : ∀ m ∈ markups, ∀ family, (passes.markers family).Closes m.1) :
    passes.checkTerminated markups = .ok () := by
  induction markups with
  | nil => rfl
  | cons markup later ih =>
    obtain ⟨t, offset⟩ := markup
    rw [List.forall_mem_cons] at h
    have hnone : passes.unterminated? t later = none := by
      simp only [unterminated?, families, List.foldl_cons, List.foldl_nil,
        Markers.unterminated?_eq_none (h.1 _)]
    rw [checkTerminated, hnone]
    exact ih h.2

theorem transpilePieces_eq (pieces : List Piece) :
    passes.transpilePieces pieces =
      match passes.checkTerminated (Piece.markups (passes.rewrite pieces)) with
      | .error error => .error error
      | .ok _ => .ok (Piece.joined (passes.rewrite pieces)) := by
  unfold transpilePieces
  dsimp only
  cases passes.checkTerminated (Piece.markups (passes.rewrite pieces)) <;> rfl

theorem transpilePieces_of_closes {pieces : List Piece}
    (h : ∀ m ∈ Piece.markups (passes.rewrite pieces), ∀ family, (passes.markers family).Closes m.1) :
    passes.transpilePieces pieces = .ok (Piece.joined (passes.rewrite pieces)) := by
  rw [transpilePieces_eq, checkTerminated_of_closes h]

end Template.EchoPasses
