import Template.Proofs.Directive
import Template.Proofs.Segment

/-! # Marks in segments

Comments, directives and native code are looked for before echo tags. No mark of theirs begins
in a segment of another kind, whatever follows it: a mark is never put together from the end of
one segment and the start of the next.
-/

namespace Template

open Markers (standardComments)

namespace EchoPasses

theorem not_mem_opening (family : EchoFamily) : '<' ∉ (standard.markers family).opening := by
  cases family <;> decide

theorem not_mem_closing (family : EchoFamily) :
    '<' ∉ (standard.markers family).closing ∧ '\x7b' ∉ (standard.markers family).closing := by
  cases family <;> decide

theorem closing_head (family : EchoFamily) :
    (standard.markers family).closing.head? = some '!' ∨
      (standard.markers family).closing.head? = some '\x7d' := by
  cases family <;> decide

end EchoPasses

namespace IsInside

variable {lead expression trail : Text} {b : Char}

/-- The second character of an introducer or of a start of native code does not come right after
    an expression. -/
theorem head?_ne (h : IsInside lead expression trail) (hb : b = '@' ∨ b = '?') (family : EchoFamily) (t : Text) :
    (trail ++ ((EchoPasses.standard.markers family).closing ++ t)).head? ≠ some b := by
  cases htrail : trail with
  | nil =>
    rw [List.nil_append, List.head?_append]
    rcases EchoPasses.closing_head family with hhead | hhead <;> rw [hhead] <;>
      rcases hb with rfl | rfl <;> simp
  | cons c more =>
    have hblank : isBlank c = true := h.trail_blank c (htrail ▸ List.mem_cons_self)
    intro hhead
    cases hhead
    rcases hb with rfl | rfl <;> cases hblank

theorem not_infix_expression (h : IsInside lead expression trail) (hb : b = '@' ∨ b = '?') :
    ¬ ['<', b] <:+: expression := by
  rcases hb with rfl | rfl
  · exact h.introducer
  · exact h.native

end IsInside

namespace Segment

variable {family : EchoFamily} {lead expression trail lineBreak name spacing argument written t : Text}
  {b : Char} {segment : Segment}

theorem not_mem_lineBreak {c : Char} (hc : c ≠ '\r' ∧ c ≠ '\n')
    (hlineBreak : lineBreak = [] ∨ lineBreak = ['\n'] ∨ lineBreak = ['\r', '\n']) : c ∉ lineBreak := by
  rcases hlineBreak with rfl | rfl | rfl <;> simp [hc]

/-- Neither an introducer nor a start of native code begins in an echo tag. -/
theorem avoids_pair_echo (h : IsInside lead expression trail)
    (hlineBreak : lineBreak = [] ∨ lineBreak = ['\n'] ∨ lineBreak = ['\r', '\n'])
    (hb : b = '@' ∨ b = '?') (t : Text) :
    Text.Avoids (['<', b] <+: ·) (echo family lead expression trail lineBreak).source t := by
  have hlead : '<' ∉ lead := fun hmem => by cases h.lead_blank _ hmem
  have htrail : '<' ∉ trail := fun hmem => by cases h.trail_blank _ hmem
  have hexpression : Text.Avoids (['<', b] <+: ·) expression
      (trail ++ ((EchoPasses.standard.markers family).closing ++ (lineBreak ++ t))) :=
    Text.avoids_pair (h.not_infix_expression hb) fun _ => h.head?_ne hb family _
  simp only [source, Text.avoids_append, List.append_assoc]
  exact ⟨Text.avoids_of_not_mem (EchoPasses.not_mem_opening family), Text.avoids_of_not_mem hlead, hexpression,
    Text.avoids_of_not_mem htrail, Text.avoids_of_not_mem (EchoPasses.not_mem_closing family).1,
    Text.avoids_of_not_mem (not_mem_lineBreak (by decide) hlineBreak)⟩

/-- Neither does one begin in a literal tag. -/
theorem avoids_pair_literal (h : IsInside lead expression trail) (hb : b = '@' ∨ b = '?') (t : Text) :
    Text.Avoids (['<', b] <+: ·) (literal family lead expression trail).source t := by
  rw [source_literal]
  refine ⟨?_, avoids_pair_echo h (.inl rfl) hb t⟩
  intro hbegins
  cases (List.cons_prefix_cons.1 hbegins).1

theorem avoids_pair_text (hwell : (text written).WellFormed) (hb : b = '@' ∨ b = '?') (t : Text) :
    Text.Avoids (['<', b] <+: ·) (text written).source t := by
  have hoccurs : ¬ ['<', b] <:+: written := by
    rcases hb with rfl | rfl
    · exact fun hoccurs => hwell.2.1 (hoccurs.subset (by decide))
    · exact hwell.2.2.1
  exact Text.avoids_pair hoccurs fun hlast => absurd hlast hwell.2.2.2

/-- No native code starts in a segment that is none. -/
theorem avoids_opensCode (hwell : segment.WellFormed) (hnative : segment.isNative = false) (t : Text) :
    Text.Avoids (opensCode · = true) segment.source t := by
  refine Text.Avoids.mono (p := (['<', '?'] <+: ·)) ?_ ?_
  · cases segment with
    | text written => exact avoids_pair_text hwell (.inr rfl) t
    | echo family lead expression trail lineBreak => exact avoids_pair_echo hwell.1 hwell.2 (.inr rfl) t
    | literal family lead expression trail => exact avoids_pair_literal hwell (.inr rfl) t
    | comment inside =>
      simp only [source, Text.avoids_append]
      refine ⟨Text.avoids_of_not_mem (by decide), Text.avoids_pair hwell.2 ?_,
        Text.avoids_of_not_mem (by decide)⟩
      exact fun _ hhead => by cases hhead
    | directive name spacing argument =>
      obtain ⟨hname, hword, hspacing, -, -, hoccurs⟩ := hwell
      obtain ⟨c, name', rfl⟩ := List.exists_cons_of_ne_nil hname
      have hname' : '<' ∉ c :: name' := fun hmem => absurd (hword _ hmem) (by decide +kernel)
      have hspacing' : '<' ∉ spacing := fun hmem => absurd (hspacing _ hmem) (by decide)
      have hintroducer : Text.Avoids (['<', '?'] <+: ·) directiveIntroducer
          (c :: name' ++ (spacing ++ (parenthesized argument ++ t))) := by
        simp [directiveIntroducer, List.cons_prefix_cons]
      have hargument : Text.Avoids (['<', '?'] <+: ·) (parenthesized argument) t := by
        refine Text.avoids_append (r := ['(']).2 ⟨Text.avoids_of_not_mem (by decide), ?_⟩
        refine Text.avoids_append.2 ⟨Text.avoids_pair hoccurs ?_, Text.avoids_of_not_mem (by decide)⟩
        exact fun _ hhead => by cases hhead
      simp only [source, Text.avoids_append, List.append_assoc]
      exact ⟨hintroducer, Text.avoids_of_not_mem hname', Text.avoids_of_not_mem hspacing', hargument⟩
    | native code => cases hnative
  · rintro u hu
    obtain ⟨v, rfl⟩ := exists_of_opensCode hu
    exact List.prefix_append ['<', '?'] v

/-- No comment starts at the opening marker of an echo tag. -/
theorem avoids_opening_of_blank {c : Char} (family : EchoFamily) (hc : isBlank c = true) :
    Text.Avoids (standardComments.opening <+: ·) (EchoPasses.standard.markers family).opening (c :: t) := by
  have hbrace : '\x7b' ≠ c := by
    rintro rfl
    cases hc
  have hdash : '-' ≠ c := by
    rintro rfl
    cases hc
  cases family <;>
    simp [EchoPasses.standard, EchoPasses.markers, standardComments, List.cons_prefix_cons, hbrace, hdash]

theorem avoids_comment_echo (h : IsInside lead expression trail)
    (hlineBreak : lineBreak = [] ∨ lineBreak = ['\n'] ∨ lineBreak = ['\r', '\n']) (t : Text) :
    Text.Avoids (standardComments.opening <+: ·) (echo family lead expression trail lineBreak).source t := by
  obtain ⟨c, lead', hlead⟩ := List.exists_cons_of_ne_nil h.lead_ne_nil
  have hblank : isBlank c = true := h.lead_blank c (hlead ▸ List.mem_cons_self)
  have hopening := avoids_opening_of_blank (t := lead' ++ (expression ++ (trail ++
    ((EchoPasses.standard.markers family).closing ++ (lineBreak ++ t))))) family hblank
  rw [← List.cons_append, ← hlead] at hopening
  have hinside : Text.Avoids (standardComments.opening <+: ·) (lead ++ (expression ++ trail))
      ((EchoPasses.standard.markers family).closing ++ (lineBreak ++ t)) :=
    Text.avoids_of_not_mem h.opening_not_mem
  simp only [Text.avoids_append, List.append_assoc] at hinside
  simp only [source, Text.avoids_append, List.append_assoc]
  exact ⟨hopening, hinside.1, hinside.2.1, hinside.2.2,
    Text.avoids_of_not_mem (EchoPasses.not_mem_closing family).2,
    Text.avoids_of_not_mem (not_mem_lineBreak (by decide) hlineBreak)⟩

/-- No comment starts in a segment that is none. -/
theorem avoids_comment (hwell : segment.WellFormed) (hcomment : segment.isComment = false)
    (hnative : segment.isNative = false) (t : Text) :
    Text.Avoids (standardComments.opening <+: ·) segment.source t := by
  cases segment with
  | text written => exact Text.avoids_of_not_mem hwell.1
  | echo family lead expression trail lineBreak => exact avoids_comment_echo hwell.1 hwell.2 t
  | literal family lead expression trail =>
    rw [source_literal]
    refine ⟨?_, avoids_comment_echo hwell (.inl rfl) t⟩
    intro hbegins
    cases (List.cons_prefix_cons.1 hbegins).1
  | comment inside => cases hcomment
  | directive name spacing argument =>
    obtain ⟨-, hword, hspacing, -, hoccurs, -⟩ := hwell
    have hname : '\x7b' ∉ name := fun hmem => absurd (hword _ hmem) (by decide +kernel)
    have hspacing' : '\x7b' ∉ spacing := fun hmem => absurd (hspacing _ hmem) (by decide)
    have hargument : Text.Avoids (standardComments.opening <+: ·) (parenthesized argument) t := by
      refine Text.avoids_append (r := ['(']).2 ⟨Text.avoids_of_not_mem (by decide), ?_⟩
      refine Text.avoids_append.2 ⟨?_, Text.avoids_of_not_mem (by decide)⟩
      exact Text.avoids_of_not_infix hoccurs (by decide)
    simp only [source, Text.avoids_append, List.append_assoc]
    exact ⟨Text.avoids_of_not_mem (by decide), Text.avoids_of_not_mem hname,
      Text.avoids_of_not_mem hspacing', hargument⟩
  | native code => cases hnative

/-- The inside of a comment does not end it. -/
theorem avoids_closing_comment {inside : Text} (hwell : (comment inside).WellFormed) (t : Text) :
    Text.Avoids (standardComments.closing <+: ·) inside (standardComments.closing ++ t) :=
  Markers.avoids_standardComments_closing hwell.1 t

/-- The last character of a tag is not an escape marker, so a tag never escapes the next one. -/
theorem getLast?_echo_ne (hlineBreak : lineBreak = [] ∨ lineBreak = ['\n'] ∨ lineBreak = ['\r', '\n']) :
    (echo family lead expression trail lineBreak).source.getLast? ≠ some escapeMarker := by
  simp only [source, List.getLast?_append]
  rcases hlineBreak with rfl | rfl | rfl <;> cases family <;>
    simp [EchoPasses.standard, EchoPasses.markers, escapeMarker]

/-- No directive starts in text or in a tag. -/
theorem avoids_directive (hwell : segment.WellFormed) (hcomment : segment.isComment = false)
    (hnative : segment.isNative = false) (hdirective : segment.isDirective = false) (t : Text) :
    Text.Avoids (fun u => DirectiveTag.tag? none u ≠ none) segment.source t := by
  have hmarks : Text.Avoids (directiveIntroducer <+: ·) segment.source t ∧
      Text.Avoids (escapeMarker :: directiveIntroducer <+: ·) segment.source t := by
    cases segment with
    | text written =>
      exact ⟨avoids_pair_text hwell (.inl rfl) t, Text.avoids_of_not_mem hwell.2.1⟩
    | echo family lead expression trail lineBreak =>
      have hintroducer : Text.Avoids (directiveIntroducer <+: ·)
          (echo family lead expression trail lineBreak).source t :=
        avoids_pair_echo hwell.1 hwell.2 (.inl rfl) t
      exact ⟨hintroducer, Text.avoids_cons_mark hintroducer (getLast?_echo_ne hwell.2)⟩
    | literal family lead expression trail =>
      have hintroducer : Text.Avoids (directiveIntroducer <+: ·)
          (literal family lead expression trail).source t :=
        avoids_pair_literal hwell (.inl rfl) t
      refine ⟨hintroducer, Text.avoids_cons_mark hintroducer ?_⟩
      rw [source_literal, List.getLast?_cons_of_ne_nil]
      · exact getLast?_echo_ne (.inl rfl)
      · cases family <;> simp [source, EchoPasses.standard, EchoPasses.markers]
    | comment => cases hcomment
    | directive => cases hdirective
    | native => cases hnative
  rw [Text.avoids_iff] at hmarks ⊢
  rw [Text.avoids_iff] at hmarks
  intro front back hsource hback htag
  rcases DirectiveTag.exists_of_tag?_ne_none htag with ⟨u, hu⟩ | ⟨u, hu⟩
  · exact hmarks.1 front back hsource hback ⟨u, hu.symm⟩
  · exact hmarks.2 front back hsource hback ⟨u, hu.symm⟩

end Segment

end Template
