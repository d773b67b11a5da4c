import Mathlib.Data.List.Forall2
import Template.Proofs.Comment
import Template.Proofs.Directive
import Template.Proofs.LineEnding

/-! # Comments, directive tags and line endings

Comments and directive tags are found in the same places whichever way the line breaks of a text are
written. A line break can stand only in the argument of a tag, which is kept as it is written.
-/

namespace Template

open Text

namespace Markers

variable {markers : Markers} {t kept : Text}

/-- Neither marker has a part of a line break, and the closing one is not empty. -/
structure Unbroken (markers : Markers) : Prop where
  opening : Text.Unbroken markers.opening
  closing : Text.Unbroken markers.closing
  closing_ne_nil : markers.closing ≠ []

theorem exists_of_map_eq_ok {ε α β : Type} {f : α → β} {x : Except ε α} {b : β} (h : f <$> x = .ok b) :
    ∃ a, x = .ok a ∧ f a = b := by
  cases x with
  | error error => cases h
  | ok a => exact ⟨a, rfl, Except.ok.inj h⟩

/-- What is left without comments stands in the text, and with the other line endings the same is left. -/
theorem stripComments_crlf (hmarkers : markers.Unbroken) {offset : Nat} (h : markers.stripComments offset t = .ok kept)
    (offset' : Nat) : markers.stripComments offset' (crlf t) = .ok (crlf kept) ∧ kept ⊆ t := by
  fun_induction splitComments markers t generalizing kept offset offset' with
  | case1 t hopen =>
    rw [stripComments_of_cut?_eq_none hopen] at h
    cases h
    refine ⟨stripComments_of_cut?_eq_none ?_, List.Subset.refl _⟩
    rw [cut?_crlf hmarkers.opening markers.opening_ne_nil, hopen, Option.map_none]
  | case2 t before inside hopen hclose =>
    rw [stripComments_of_unclosed hopen hclose] at h
    cases h
  | case3 t before inside hopen comment after hclose parts last hsplit ih =>
    rw [stripComments_of_closed hopen hclose] at h
    obtain ⟨rest, hrest, rfl⟩ := exists_of_map_eq_ok h
    have hopen' := cut?_crlf hmarkers.opening markers.opening_ne_nil t
    have hclose' := cut?_crlf hmarkers.closing hmarkers.closing_ne_nil inside
    rw [hopen] at hopen'
    rw [hclose] at hclose'
    rw [stripComments_of_closed hopen' hclose', (ih hrest _).1]
    refine ⟨congrArg Except.ok (crlf_append before rest).symm, ?_⟩
    rw [cut?_eq_some hopen, cut?_eq_some hclose]
    exact List.append_subset.2 ⟨fun c hc => by simp [hc], fun c hc => by simp [(ih hrest 0).2 hc]⟩

end Markers

/-- The argument with its line breaks written in the other way. -/
def DirectiveArgument.crlf : DirectiveArgument → DirectiveArgument
  | given text => given (Text.crlf text)
  | argument => argument

theorem DirectiveArgument.text?_crlf (argument : DirectiveArgument) :
    argument.crlf.text? = argument.text?.map Text.crlf := by
  cases argument <;> rfl

namespace DirectiveTag

variable {c : Char} {t : Text} {previous : Option Char}

/-- The tag with the line breaks of its argument written in the other way. -/
def crlf (tag : DirectiveTag) : DirectiveTag := { tag with argument := tag.argument.crlf }

theorem argumentOf_crlf (t : Text) : argumentOf (Text.crlf t) = (argumentOf t).map DirectiveArgument.crlf Text.crlf := by
  have hhead : ((Text.crlf t).head? == some '(') = (t.head? == some '(') := by
    rw [head?_crlf]
    split
    case isTrue h =>
      rw [h]
      decide
    case isFalse => rfl
  unfold argumentOf
  rw [group?_crlf, hhead]
  cases group? t with
  | some found => rfl
  | none =>
    dsimp only [Option.map_none]
    split <;> rfl

theorem isWord_lineBreak : isWord '\r' = false ∧ isWord '\n' = false := by decide +kernel

theorem fromIntroducer?_crlf (escaped : Bool) (t : Text) :
    fromIntroducer? escaped (Text.crlf t) = (fromIntroducer? escaped t).map (Prod.map crlf Text.crlf) := by
  unfold fromIntroducer?
  rw [stripPrefix?_crlf (by decide)]
  cases stripPrefix? directiveIntroducer t with
  | none => rfl
  | some t =>
    dsimp only [Option.map_some]
    rw [takeWhile_crlf isWord_lineBreak.1 isWord_lineBreak.2, dropWhile_crlf isWord_lineBreak.1 isWord_lineBreak.2,
      dropWhile_crlf (by decide) (by decide), takeWhile_crlf (by decide) (by decide), argumentOf_crlf]
    split <;> rfl

theorem tag?_crlf (previous : Option Char) (t : Text) :
    tag? previous (Text.crlf t) = (tag? previous t).map (Prod.map crlf Text.crlf) := by
  unfold tag?
  rw [stripPrefix?_crlf (by decide), fromIntroducer?_crlf]
  cases stripPrefix? [escapeMarker] t with
  | some t => exact fromIntroducer?_crlf true t
  | none =>
    dsimp only [Option.map_none]
    split <;> rfl

theorem tag?_lineBreak (previous : Option Char) (hc : c = '\r' ∨ c = '\n') (t : Text) :
    tag? previous (c :: t) = none := by
  rw [tag?_eq_none_iff]
  constructor
  · rintro u heq
    rcases hc with rfl | rfl <;> cases heq
  · right
    apply not_startsHead_of_ne
    rcases hc with rfl | rfl <;> decide

theorem next?_of_none (h : tag? previous (c :: t) = none) :
    next? previous (c :: t) = (next? (some c) t).map fun (before, found) => (c :: before, found) := by
  rw [next?, h]

theorem next?_crlf (previous : Option Char) (t : Text) : next? previous (Text.crlf t) =
    (next? previous t).map (Prod.map Text.crlf (Prod.map crlf Text.crlf)) := by
  induction t generalizing previous with
  | nil => rfl
  | cons c t ih =>
    by_cases hc : c = '\n'
    case pos =>
      subst hc
      rw [crlf_lineFeed, next?_of_none (tag?_lineBreak _ (.inl rfl) _), next?_of_none (tag?_lineBreak _ (.inr rfl) _),
        next?_of_none (tag?_lineBreak _ (.inr rfl) _), ih]
      exact map_lineBreak_crlf _
    case neg =>
      have htag := tag?_crlf previous (c :: t)
      rw [crlf_cons hc] at htag ⊢
      cases hfound : tag? previous (c :: t) with
      | some found =>
        rw [hfound] at htag
        rw [next?_of_tag? hfound, next?_of_tag? htag]
        rfl
      | none =>
        rw [hfound] at htag
        rw [next?_of_none hfound, next?_of_none htag, ih]
        exact map_cons_crlf hc _

/-- A tag with the text before it, and the same with the line breaks written in the other way. -/
structure CrlfPart (part other : Text × DirectiveTag) : Prop where
  before : other.1 = Text.crlf part.1
  tag : other.2 = part.2.crlf
  unescaped : part.2.crlf.unescaped = Text.crlf part.2.unescaped
  carriageReturn : '\r' ∉ part.1 ++ part.2.unescaped

theorem source_crlf {before rest : Text} {tag : DirectiveTag} (h : next? previous t = some (before, tag, rest)) :
    tag.crlf.source = Text.crlf tag.source := by
  have h' := next?_crlf previous t
  rw [h] at h'
  have htext := next?_eq_some h'
  rw [next?_eq_some h, crlf_append, crlf_append] at htext
  exact (List.append_cancel_left (List.append_cancel_right htext)).symm

theorem unescaped_crlf {tag : DirectiveTag} (h : tag.crlf.source = Text.crlf tag.source) :
    tag.crlf.unescaped = Text.crlf tag.unescaped := by
  unfold source at h
  rw [crlf_append] at h
  change (if tag.escaped then [escapeMarker] else []) ++ _ = _ at h
  split at h
  case isTrue => exact List.append_cancel_left h
  case isFalse => exact h

/-- The tags of a text are the same with the other line endings, and so is the text around them. -/
theorem splitAfter_crlf (previous : Option Char) (h : '\r' ∉ t) :
    List.Forall₂ CrlfPart (splitAfter previous t).1 (splitAfter previous (Text.crlf t)).1 ∧
      (splitAfter previous (Text.crlf t)).2 = Text.crlf (splitAfter previous t).2 ∧ '\r' ∉ (splitAfter previous t).2 := by
  fun_induction splitAfter previous t with
  | case1 previous t hnext =>
    have hnext' := next?_crlf previous t
    rw [hnext] at hnext'
    rw [splitAfter_of_none hnext']
    exact ⟨.nil, rfl, h⟩
  | case2 previous t before tag rest hnext parts last hsplit ih =>
    have hnext' := next?_crlf previous t
    have hsource := source_crlf hnext
    rw [hnext] at hnext'
    rw [next?_eq_some hnext, List.mem_append, List.mem_append, not_or, not_or] at h
    obtain ⟨hparts, hlast⟩ := ih h.2
    rw [hsplit] at hparts hlast
    rw [splitAfter_of_some hnext', hsource, getLast?_crlf]
    have hreturn : '\r' ∉ before ++ tag.unescaped := by
      rw [List.mem_append, not_or]
      exact ⟨h.1.1, fun hmem => h.1.2 (List.mem_append_right _ hmem)⟩
    exact ⟨.cons ⟨rfl, rfl, unescaped_crlf hsource, hreturn⟩ hparts, hlast⟩

end DirectiveTag

end Template
