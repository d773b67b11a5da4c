import Template.Proofs.Comment
import Template.Proofs.CutMarkup
import Template.Proofs.DirectiveScan
import Template.Proofs.Standard

/-! # Unknown directives

A directive tag without a directive stays in the text as it is written, but the echo passes get the
text cut at its ends. An echo tag that lies across such a cut is not read any more; without one, the
passes make the same of the pieces as of the text.
-/

namespace Template

namespace DirectiveTag

/-- Where the tags of a text that stands at a byte position start and stop. -/
def edges : (offset : Nat) → List (Text × DirectiveTag) → List Nat
  | _, [] => []
  | offset, (before, tag) :: parts =>
    let start := offset + Text.byteLength before
    let stop := start + Text.byteLength tag.source
    start :: stop :: edges stop parts

end DirectiveTag

namespace Registry

/-- The registry has no directive for any head of a directive tag in the text, and no head is
    escaped. A head is an introducer with a word after it and no word character before it. -/
def KnowsNoHead (registry : Registry) (text : Text) : Prop :=
  ∀ before name after, text = before ++ (directiveIntroducer ++ (name ++ after)) → name ≠ [] →
    (∀ c ∈ name, isWord c = true) → (∀ c ∈ after.head?, isWord c = false) →
      before.getLast?.any isWord = false →
        registry.find? name = none ∧ before.getLast? ≠ some escapeMarker

section

variable {registry : Registry} {t last : Text} {parts : List (Text × DirectiveTag)}

theorem KnowsNoHead.of_parses (h : registry.KnowsNoHead t) (hparses : DirectiveTag.Parses none t parts last)
    {part : Text × DirectiveTag} (hpart : part ∈ parts) :
    part.2.escaped = false ∧ registry.handler? part.2 = none := by
  obtain ⟨before, tag⟩ := part
  obtain ⟨front, u, rest, rfl, hstands⟩ := hparses.exists_standsAt hpart
  rw [Option.or_none] at hstands
  obtain @⟨escaped, name, spacing, after, _, argument, hprevious, hname, hword, hafterName, _, _, _⟩ :=
    hstands
  cases escaped with
  | true =>
    have hhead := (h (front ++ [escapeMarker]) name (spacing ++ after) (by simp) hname hword hafterName
      (by simp; decide +kernel)).2
    simp at hhead
  | false =>
    have hhead := (h front name (spacing ++ after) (by simp) hname hword hafterName
      (hprevious.resolve_left Bool.false_ne_true)).1
    refine ⟨rfl, ?_⟩
    simpa [handler?] using hhead

theorem append_cons_inj {c : Char} {s t before after : Text} (hs : c ∉ s) (ht : c ∉ t)
    (h : s ++ c :: t = before ++ c :: after) : s = before ∧ t = after := by
  rcases List.append_eq_append_iff.1 h with ⟨more, hbefore, hmore⟩ | ⟨more, hbefore, hmore⟩
  · cases more with
    | nil => exact ⟨by rw [hbefore, List.append_nil], (List.cons.inj hmore).2⟩
    | cons d more =>
      rw [List.cons_append, List.cons.injEq] at hmore
      exact absurd (hmore.2 ▸ List.mem_append_right more List.mem_cons_self) ht
  · cases more with
    | nil => exact ⟨by rw [hbefore, List.append_nil], (List.cons.inj hmore).2.symm⟩
    | cons d more =>
      rw [List.cons_append, List.cons.injEq] at hmore
      exact absurd (hbefore ▸ hmore.1 ▸ List.mem_append_right before List.mem_cons_self) hs

/-- A text that opens one tag has no other head. -/
theorem knowsNoHead_of_single {s t : Text} (hs : '<' ∉ s) (ht : '<' ∉ t)
    (hname : registry.find? (t.takeWhile isWord) = none) (hescape : s.getLast? ≠ some escapeMarker) :
    registry.KnowsNoHead (s ++ (directiveIntroducer ++ t)) := by
  intro before name after htext _ hword hafter _
  have ht' : '<' ∉ '@' :: t := by simpa using ht
  obtain ⟨rfl, hrest⟩ := append_cons_inj hs ht' htext
  have hafterIntroducer : t = name ++ after := (List.cons.inj hrest).2
  rw [hafterIntroducer, takeWhile_append_of_all hword hafter] at hname
  exact ⟨hname, hescape⟩

end

end Registry

namespace EchoPasses

/-- The characters of the markers in the default configuration. -/
def standardMarkChars : Text := "\x7b\x7d!".toList

theorem standard_markers_subset (family : EchoFamily) :
    (standard.markers family).opening ⊆ standardMarkChars ∧
      (standard.markers family).closing ⊆ standardMarkChars := by
  cases family <;> decide

section

variable {passes : EchoPasses} {s t : Text} {c : Char}

theorem bars_of_not_mem (hmarkers : ∀ family, passes.markers family = standard.markers family)
    (hc : c ∉ standardMarkChars) (h : c ∈ s.getLast? ∨ c ∈ t.head?) : passes.Bars s t := by
  have hbars : ∀ mark : Text, mark ⊆ standardMarkChars → Text.Bars mark s t := by
    intro mark hmark
    exact h.imp (fun h => ⟨c, h, fun hmem => hc (hmark hmem)⟩) fun h => ⟨c, h, fun hmem => hc (hmark hmem)⟩
  intro family
  have hsubset := standard_markers_subset family
  rw [← hmarkers family] at hsubset
  exact ⟨hbars _ hsubset.1, hbars _ hsubset.2⟩

theorem not_mem_standardMarkChars (h : isWord c = true ∨ DirectiveTag.isSpacing c = true ∨ c = ')') :
    c ∉ standardMarkChars := by
  intro hmem
  have hc : c = '\x7b' ∨ c = '\x7d' ∨ c = '!' := by simpa [standardMarkChars] using hmem
  have hnone : ∀ d : Char, d = '\x7b' ∨ d = '\x7d' ∨ d = '!' →
      (isWord d || DirectiveTag.isSpacing d || d == ')') = false := by
    rintro d (rfl | rfl | rfl) <;> decide +kernel
  have hnone := hnone c hc
  simp only [Bool.or_eq_false_iff, beq_eq_false_iff_ne] at hnone
  rcases h with h | h | h
  · rw [hnone.1.1] at h
    cases h
  · rw [hnone.1.2] at h
    cases h
  · exact hnone.2 h

/-- The pieces of a text whose tags all stay are the text cut at the ends of its tags. -/
theorem cuts_placed (hmarkers : ∀ family, passes.markers family = standard.markers family)
    {previous : Option Char} {last : Text} {parts : List (Text × DirectiveTag)}
    (hparses : DirectiveTag.Parses previous t parts last) (hescaped : ∀ part ∈ parts, part.2.escaped = false)
    (front : Text) (offset : Nat) {edges : List Nat}
    (hedges : DirectiveTag.edges (offset + Text.byteLength front) parts ⊆ edges) :
    passes.Cuts edges (Piece.ofMarkup t (offset + Text.byteLength front))
      (DirectiveTag.placed offset front parts (parts.map fun _ => none) last) := by
  rw [← List.append_nil (Piece.ofMarkup t _)]
  induction hparses generalizing front with
  | last =>
    rw [← List.append_nil (DirectiveTag.placed _ _ _ _ _)]
    exact Cuts.append_left .nil _
  | @tag previous before t rest last tag parts _ htag _ ih =>
    rw [List.forall_mem_cons] at hescaped
    simp only [DirectiveTag.edges, Nat.add_assoc, ← Text.byteLength_append, List.cons_subset] at hedges
    obtain ⟨hstart, hstop, hedges⟩ := hedges
    rw [List.map_cons, DirectiveTag.placed, Registry.inPlace_of_not_escaped hescaped.1, htag.eq_append,
      List.append_assoc (Piece.ofMarkup before _)]
    apply Cuts.ofMarkup_append
    · rwa [Nat.add_assoc, ← Text.byteLength_append]
    · intro _ _
      refine bars_of_not_mem hmarkers (c := '<') (by decide) (.inr ?_)
      rw [DirectiveTag.source_eq_unescaped hescaped.1]
      rfl
    · rw [Nat.add_assoc, ← Text.byteLength_append, List.append_nil,
        ← List.append_nil (Piece.ofMarkup (tag.source ++ rest) _)]
      apply Cuts.ofMarkup_append
      · rwa [Nat.add_assoc, ← Text.byteLength_append]
      · intro _ _
        obtain ⟨c, hc, hlast⟩ := htag.exists_last
        exact bars_of_not_mem hmarkers (not_mem_standardMarkChars hlast) (.inl hc)
      · rw [Nat.add_assoc, ← Text.byteLength_append]
        exact ih hescaped.2 _ hedges

/-- No echo tag that the passes read in the text lies across an end of a directive tag. -/
def ReadsNoneAcross (passes : EchoPasses) (text : Text) : Prop :=
  let edges := DirectiveTag.edges 0 (DirectiveTag.split text).1
  passes.NoneAcross .raw edges [.markup text 0] ∧
    passes.NoneAcross .escaped edges (passes.pass .raw [.markup text 0]) ∧
    passes.NoneAcross .regular edges (passes.pass .escaped (passes.pass .raw [.markup text 0]))

end

instance (passes : EchoPasses) (family : EchoFamily) (edges : List Nat) (pieces : List Piece) :
    Decidable (passes.NoneAcross family edges pieces) :=
  inferInstanceAs (Decidable (∀ markup ∈ Piece.markups pieces, ∀ place ∈ _, ∀ edge ∈ edges, _ ∨ _))

instance (passes : EchoPasses) (text : Text) : Decidable (passes.ReadsNoneAcross text) :=
  inferInstanceAs (Decidable (_ ∧ _ ∧ _))

end EchoPasses

namespace Transpiler

/-- Directive tags without directives are plain text to the echo passes, unless an echo tag lies
    across one of their ends. -/
theorem render_unknownDirectives {transpiler : Transpiler} {text : Text}
    (hcomments : transpiler.comments = .standardComments)
    (hechoes : ∀ family, transpiler.echoes.markers family = EchoPasses.standard.markers family)
    (hhooks : transpiler.hooks = []) (hspan : Span.ofText text = [⟨.markup, text, 0⟩])
    (hcomment : ¬ Markers.standardComments.opening <:+: text)
    (hheads : transpiler.directives.KnowsNoHead text)
    (hacross : transpiler.echoes.ReadsNoneAcross text) :
    transpiler.render text = transpiler.echoes.transpile text 0 := by
  have hparses := DirectiveTag.parses_splitAfter none text
  have hkept := fun part (hpart : part ∈ (DirectiveTag.splitAfter none text).1) =>
    hheads.of_parses hparses hpart
  have htext : text ≠ [] := by
    rintro rfl
    have hnone : Span.ofText [] = [] := Span.ofTextAt_of_none rfl
    rw [hnone] at hspan
    cases hspan
  have hcuts := EchoPasses.cuts_placed hechoes hparses (fun part hpart => (hkept part hpart).1) [] 0
    (List.Subset.refl _)
  have hpieces := EchoPasses.transpilePieces_eq_of_cuts hcuts
  rw [Piece.ofMarkup, if_neg htext] at hpieces
  have hanswer := hpieces hacross.1 hacross.2.1 hacross.2.2
  refine render_of_markup hspan fun answers => ?_
  rw [renderMarkup_apply hhooks, hcomments, Markers.stripComments_of_not_infix hcomment]
  dsimp only
  rw [DirectiveTag.split, Registry.carryOut_of_kept _ _ fun part hpart => (hkept part hpart).2]
  exact congrArg (·, Context.start) hanswer.symm

/-- An unknown directive whose parenthesis is never closed, and an echo tag after it. -/
def mediaText : Text := "<@media (max-width \x7b\x7b $w \x7d\x7d".toList

theorem render_unknownDirectives_mediaText :
    (standard .builtins).render mediaText = .ok "<@media (max-width <?php echo e($w); ?>".toList := by
  have hheads : Registry.builtins.KnowsNoHead mediaText :=
    Registry.knowsNoHead_of_single (s := []) (t := "media (max-width \x7b\x7b $w \x7d\x7d".toList)
      (by decide) (by decide) (by decide +kernel) (by decide)
  have hanswer := @render_unknownDirectives (standard .builtins) mediaText rfl (fun _ => rfl) rfl
    (by decide +kernel) (by decide +kernel) hheads (by decide +kernel)
  exact hanswer.trans (by decide +kernel)

/-- An unknown directive inside an echo tag. -/
def echoedHead : Text := "\x7b\x7b <@foo \x7d\x7d".toList

/-- The echo passes alone rewrite the echo tag; behind the directives it is cut and stays. -/
theorem render_echoedHead_ne_transpile :
    Span.ofText echoedHead = [⟨.markup, echoedHead, 0⟩] ∧
      ¬ Markers.standardComments.opening <:+: echoedHead ∧ Registry.builtins.KnowsNoHead echoedHead ∧
      (standard .builtins).render echoedHead = .ok echoedHead ∧
      (standard .builtins).echoes.transpile echoedHead 0 = .ok "<?php echo e(<@foo); ?>".toList := by
  refine ⟨by decide +kernel, by decide +kernel, ?_, by decide +kernel, by decide +kernel⟩
  exact Registry.knowsNoHead_of_single (s := "\x7b\x7b ".toList) (t := "foo \x7d\x7d".toList)
    (by decide) (by decide) (by decide +kernel) (by decide)

end Transpiler

end Template
