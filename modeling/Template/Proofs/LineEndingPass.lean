import Template.Proofs.CutMarkup
import Template.Proofs.LineEndingEcho
import Template.Proofs.Standard

/-! # Echo passes and line endings

The passes over echo tags make the same of markup whichever way its line breaks are written. What they
make is final, so it is enough that each output is spelled like the other; it never begins with a line
feed when the line breaks are written with carriage returns.
-/

namespace Template

open Text

namespace Text

variable {s t u v : Text}

/-- An output with each of the two line endings: they are spelled alike, and the one with carriage returns
    does not begin with a line feed. -/
structure SameOutput (t u : Text) : Prop where
  respelled : Respelled t u
  head?_ne : u.head? ≠ some '\n'

theorem SameOutput.nil : SameOutput [] [] := ⟨.nil, by simp⟩

theorem SameOutput.append (h : SameOutput s u) (h' : SameOutput t v) : SameOutput (s ++ t) (u ++ v) := by
  refine ⟨h.respelled.append h'.respelled, ?_⟩
  have hhead := h.head?_ne
  rw [List.head?_append]
  cases hfirst : u.head? with
  | none => exact h'.head?_ne
  | some c => rwa [hfirst] at hhead

theorem sameOutput_crlf (h : '\r' ∉ t) : SameOutput t (crlf t) := ⟨respelled_crlf h, head?_crlf_ne t⟩

end Text

namespace Piece

variable {p q : Piece} {t : Text} {pieces others : List Piece}

/-- The same piece, wherever the two stand, with its line breaks written in the other way. -/
inductive Crlf : Piece → Piece → Prop where
  | markup {t : Text} (hreturn : '\r' ∉ t) (offset offset' : Nat) :
      Crlf (.markup t offset) (.markup (Text.crlf t) offset')
  | output {t u : Text} (h : SameOutput t u) : Crlf (.output t) (.output u)

theorem Crlf.sameOutput (h : Crlf p q) : SameOutput p.text q.text := by
  cases h with
  | markup hreturn => exact sameOutput_crlf hreturn
  | output hsame => exact hsame

theorem ofMarkup_crlf (h : '\r' ∉ t) (offset offset' : Nat) :
    List.Forall₂ Crlf (ofMarkup t offset) (ofMarkup (Text.crlf t) offset') := by
  unfold ofMarkup
  simp only [crlf_eq_nil_iff]
  split
  case isTrue => exact .nil
  case isFalse => exact .cons (.markup h offset offset') .nil

theorem joined_crlf (h : List.Forall₂ Crlf pieces others) : SameOutput (joined pieces) (joined others) := by
  induction h with
  | nil => exact .nil
  | cons hp _ ih => exact hp.sameOutput.append ih

theorem markups_crlf (h : List.Forall₂ Crlf pieces others) :
    List.Forall₂ (fun markup other => other.1 = Text.crlf markup.1) (markups pieces) (markups others) := by
  induction h with
  | nil => exact .nil
  | cons hp _ ih =>
    cases hp with
    | markup => exact .cons rfl ih
    | output => exact ih

end Piece

namespace Markers

variable {markers : Markers} {t : Text} {later later' : List (Text × Nat)}

theorem firstUnclosed?_crlf (hmarkers : markers.Unbroken) (position' : Nat) {position : Nat}
    (h : markers.firstUnclosed? position t = none) : markers.firstUnclosed? position' (crlf t) = none := by
  have hopening := cut?_crlf hmarkers.opening markers.opening_ne_nil
  fun_induction firstUnclosed? markers position t generalizing position' with
  | case1 position t hcut =>
    apply firstUnclosed?_of_none
    rw [hopening, hcut, Option.map_none]
  | case2 position t before after hcut here hcontains ih =>
    have hcut' := hopening t
    rw [hcut] at hcut'
    have hcontains' : contains markers.closing (crlf after) = true := by
      rw [contains_crlf hmarkers.closing hmarkers.closing_ne_nil, hcontains]
    rw [firstUnclosed?_of_some hcut', if_pos hcontains']
    exact ih _ h
  | case3 => cases h

theorem any_contains_crlf (hmarkers : markers.Unbroken)
    (hlater : List.Forall₂ (fun markup other => other.1 = crlf markup.1) later later') :
    (later'.any fun (text, _) => contains markers.closing text) =
      later.any fun (text, _) => contains markers.closing text := by
  induction hlater with
  | nil => rfl
  | @cons markup markup' later later' hmarkup _ ih =>
    obtain ⟨text, offset⟩ := markup
    obtain ⟨text', offset'⟩ := markup'
    cases hmarkup
    simp only [List.any_cons, ih, contains_crlf hmarkers.closing hmarkers.closing_ne_nil]

theorem unterminated?_crlf (hmarkers : markers.Unbroken)
    (hlater : List.Forall₂ (fun markup other => other.1 = crlf markup.1) later later')
    (h : markers.unterminated? t later = none) : markers.unterminated? (crlf t) later' = none := by
  unfold unterminated? at h ⊢
  rw [any_contains_crlf hmarkers hlater]
  split at h
  case isTrue hclosed => rw [if_pos hclosed]
  case isFalse hopen =>
    rw [if_neg hopen]
    exact firstUnclosed?_crlf hmarkers 0 h

end Markers

namespace EchoPasses

theorem echoCode_sameOutput {value value' lineBreak lineBreak' : Text} (hvalue : Respelled value value')
    (hbreak : Respelled lineBreak lineBreak') : SameOutput (echoCode value lineBreak) (echoCode value' lineBreak') := by
  have hstart : SameOutput "<?php echo ".toList "<?php echo ".toList := ⟨.refl (by decide), by decide⟩
  have hstop : Respelled "; ?>".toList "; ?>".toList := .refl (by decide)
  have hrest := ((hvalue.append hstop).append hbreak).append hbreak
  have hhead : (echoCode value' lineBreak').head? = some '<' := rfl
  refine ⟨?_, by simp [hhead]⟩
  unfold echoCode
  simp only [List.append_assoc] at hrest ⊢
  exact hstart.respelled.append hrest

/-- No marker has a part of a line break, and the echo format has no carriage return. -/
structure Unbroken (passes : EchoPasses) : Prop where
  markers : ∀ family, (passes.markers family).Unbroken
  format : '\r' ∉ passes.format

theorem standard_unbroken : standard.Unbroken where
  markers family := by
    cases family
    · exact ⟨by decide, by decide, by decide⟩
    · exact ⟨by decide, by decide, by decide⟩
    · exact ⟨by decide, by decide, by decide⟩
  format := by decide

section

variable {t : Text} {passes : EchoPasses} {later : List (Text × Nat)} {first : Option (Nat × TagKind)}
  {place : Option Nat} {kind : TagKind}

theorem earlier_eq_none_iff : earlier first place kind = none ↔ first = none ∧ place = none := by
  cases place with
  | none => simp [earlier]
  | some place =>
    simp only [earlier, reduceCtorEq, and_false, iff_false]
    cases first with
    | none => simp
    | some found =>
      split
      · simp
      · simp

theorem unterminated?_eq_none_iff :
    passes.unterminated? t later = none ↔ ∀ family, (passes.markers family).unterminated? t later = none := by
  simp only [unterminated?_eq_foldl, families, List.foldl_cons, List.foldl_nil, earlier_eq_none_iff]
  constructor
  · rintro ⟨⟨⟨-, hraw⟩, hescaped⟩, hregular⟩ family
    cases family with
    | raw => exact hraw
    | escaped => exact hescaped
    | regular => exact hregular
  · intro h
    exact ⟨⟨⟨trivial, h .raw⟩, h .escaped⟩, h .regular⟩

end

section

variable {passes : EchoPasses} (hpasses : passes.Unbroken) {family : EchoFamily} {pieces others : List Piece}
  {markups markups' : List (Text × Nat)}

include hpasses

theorem value_respelled {expression expression' : Text} (family : EchoFamily) (h : Respelled expression expression') :
    Respelled (passes.value family expression) (passes.value family expression') := by
  cases family with
  | raw => exact h
  | escaped => exact ((Respelled.refl (by decide)).append h).append (Respelled.refl (by decide))
  | regular =>
    simp only [value, replaceFirst]
    cases hcut : cut? echoPlaceholder passes.format with
    | none => exact .refl hpasses.format
    | some found =>
      have hformat := hpasses.format
      rw [cut?_eq_some hcut, List.mem_append, List.mem_append, not_or, not_or] at hformat
      exact ((Respelled.refl hformat.1.1).append h).append (.refl hformat.2)

theorem rewriteTag_crlf {tag other : EchoTag} (htag : tag.Crlf other)
    (hreturn : '\r' ∉ tag.source (passes.markers family)) (offset offset' : Nat) :
    Piece.Crlf (passes.rewriteTag family offset tag) (passes.rewriteTag family offset' other) := by
  have hmarkers := hpasses.markers family
  unfold rewriteTag
  rw [htag.escaped]
  split
  case isTrue =>
    have hunescaped : '\r' ∉ tag.unescaped (passes.markers family) := fun hmem =>
      hreturn (List.mem_append_right _ hmem)
    cases family with
    | escaped =>
      have hsource : other.source passes.escaped = crlf (tag.source passes.escaped) := htag.source hmarkers
      dsimp only
      rw [hsource]
      exact .markup hreturn offset offset'
    | raw | regular =>
      dsimp only
      rw [htag.unescaped hmarkers]
      exact .output (sameOutput_crlf hunescaped)
  case isFalse =>
    have hbreak : Respelled tag.lineBreak other.lineBreak := by
      rw [htag.lineBreak]
      apply respelled_crlf
      intro hmem
      apply hreturn
      simp [EchoTag.source, EchoTag.unescaped, hmem]
    have hvalue := value_respelled hpasses family htag.expression
    exact .output (echoCode_sameOutput hvalue hbreak)

theorem rewriteTags_crlf {parts parts' : List (Text × EchoTag)} {last : Text}
    (hparts : List.Forall₂ (Markers.CrlfPart (passes.markers family)) parts parts') (hlast : '\r' ∉ last)
    (offset offset' : Nat) :
    List.Forall₂ Piece.Crlf (passes.rewriteTags family offset parts last)
      (passes.rewriteTags family offset' parts' (crlf last)) := by
  induction hparts generalizing offset offset' with
  | nil => exact Piece.ofMarkup_crlf hlast offset offset'
  | @cons part part' parts parts' hpart _ ih =>
    obtain ⟨before, tag⟩ := part
    obtain ⟨before', tag'⟩ := part'
    obtain ⟨rfl, htag, hreturn⟩ := hpart
    rw [List.mem_append, not_or] at hreturn
    exact List.rel_append (Piece.ofMarkup_crlf hreturn.1 _ _)
      (.cons (rewriteTag_crlf hpasses htag hreturn.2 _ _) (ih _ _))

theorem rewritePiece_crlf {p q : Piece} (h : Piece.Crlf p q) :
    List.Forall₂ Piece.Crlf (passes.rewritePiece family p) (passes.rewritePiece family q) := by
  cases h with
  | markup hreturn offset offset' =>
    obtain ⟨hparts, hlast, hlastReturn⟩ := Markers.splitTags_crlf (hpasses.markers family) hreturn
    simp only [rewritePiece, hlast]
    exact rewriteTags_crlf hpasses hparts hlastReturn offset offset'
  | output hsame => exact .cons (.output hsame) .nil

theorem pass_crlf (h : List.Forall₂ Piece.Crlf pieces others) :
    List.Forall₂ Piece.Crlf (passes.pass family pieces) (passes.pass family others) := by
  induction h with
  | nil => exact .nil
  | cons hp _ ih => exact List.rel_append (rewritePiece_crlf hpasses hp) ih

theorem rewrite_crlf (h : List.Forall₂ Piece.Crlf pieces others) :
    List.Forall₂ Piece.Crlf (passes.rewrite pieces) (passes.rewrite others) :=
  pass_crlf hpasses (pass_crlf hpasses (pass_crlf hpasses h))

theorem checkTerminated_crlf (hmarkups : List.Forall₂ (fun markup other => other.1 = crlf markup.1) markups markups')
    (h : passes.checkTerminated markups = .ok ()) : passes.checkTerminated markups' = .ok () := by
  induction hmarkups with
  | nil => rfl
  | @cons markup markup' later later' hmarkup hlater ih =>
    obtain ⟨text, offset⟩ := markup
    obtain ⟨text', offset'⟩ := markup'
    cases hmarkup
    unfold checkTerminated at h
    split at h
    case h_1 => cases h
    case h_2 hterminated =>
      have hterminated' : passes.unterminated? (crlf text) later' = none := by
        rw [unterminated?_eq_none_iff] at hterminated ⊢
        intro family
        exact Markers.unterminated?_crlf (hpasses.markers family) hlater (hterminated family)
      simp only [checkTerminated, hterminated']
      exact ih h

/-- Pieces that come through the passes do so with the other line endings. -/
theorem transpilePieces_crlf {output : Text} (hpieces : List.Forall₂ Piece.Crlf pieces others)
    (h : passes.transpilePieces pieces = .ok output) :
    ∃ output', passes.transpilePieces others = .ok output' ∧ SameOutput output output' := by
  have hdone := rewrite_crlf hpasses hpieces
  rw [transpilePieces_eq] at h
  split at h
  case h_1 => cases h
  case h_2 hchecked =>
    cases h
    refine ⟨_, ?_, Piece.joined_crlf hdone⟩
    rw [transpilePieces_eq, checkTerminated_crlf hpasses (Piece.markups_crlf hdone) hchecked]

end

end EchoPasses

end Template
