import Template.Proofs.Comment
import Template.Proofs.Directive
import Template.Proofs.NativeSpan
import Template.Proofs.SegmentEcho

/-! # What a comment may hold

A comment is dropped with all that it holds, tags and markers of every kind. Native code is no part
of it: it is cut out of the template before comments are looked for, so a comment in which native
code starts has lost its end, and is reported where it opens.
-/

namespace Template

/-- Native code starts in the text, whatever follows the text. -/
def SpellsNative (t : Text) : Prop :=
  ['<', '?', '='] <:+: t ∨ ∃ name blank, '<' :: '?' :: (name ++ [blank]) <:+: t ∧
    name.map Char.toLower = ['p', 'h', 'p'] ∧ isBlank blank = true

section

variable {comment rest : Text}

/-- The dash of a comment's end is no part of a code opener. -/
theorem dash_not_mem_name {name : Text} (hname : name.map Char.toLower = ['p', 'h', 'p']) : '-' ∉ name := by
  intro hmem
  have hlower : '-'.toLower ∈ name.map Char.toLower := List.mem_map_of_mem hmem
  rw [hname] at hlower
  exact absurd hlower (by decide)

/-- No code starts in a text before a dash exactly when the text by itself starts none. -/
theorem avoids_opensCode_iff : Text.Avoids (opensCode · = true) comment ('-' :: rest) ↔ ¬ SpellsNative comment := by
  constructor
  · intro havoids hspells
    have hopens : ∃ front back, comment = front ++ back ∧ opensCode (back ++ '-' :: rest) = true := by
      rcases hspells with ⟨front, back, hcomment⟩ | ⟨name, blank, ⟨front, back, hcomment⟩, hname, hblank⟩
      · refine ⟨front, '<' :: '?' :: '=' :: back, by rw [← hcomment]; simp, rfl⟩
      · refine ⟨front, '<' :: '?' :: (name ++ blank :: back), by rw [← hcomment]; simp, opensCode_iff.2 (.inr ?_)⟩
        refine ⟨name, blank :: (back ++ '-' :: rest), by simp, hname, ?_⟩
        intro c hc
        cases hc
        exact hblank
    obtain ⟨front, back, rfl, hopens⟩ := hopens
    refine Text.avoids_iff.1 havoids front back rfl ?_ hopens
    rintro rfl
    obtain ⟨u, hu⟩ := exists_of_opensCode hopens
    exact absurd (List.cons.inj hu).1 (by decide)
  · intro hspells
    rw [Text.avoids_iff]
    intro front back hcomment hback hopens
    rcases opensCode_iff.1 hopens with hbegins | ⟨name, after, hafter, hname, hblank⟩
    · have havoids : Text.Avoids (['<', '?', '='] <+: ·) comment ('-' :: rest) :=
        Text.avoids_of_not_infix (fun hoccurs => hspells (.inl hoccurs)) (by decide)
      exact Text.avoids_iff.1 havoids front back hcomment hback hbegins
    · cases after with
      | nil =>
        have hdash : '-' ∈ '<' :: '?' :: (name ++ []) := hafter ▸ by simp
        simp [dash_not_mem_name hname] at hdash
      | cons blank after =>
        have hblank : isBlank blank = true := hblank blank rfl
        have hne : '-' ≠ blank := by
          rintro rfl
          exact absurd hblank (by decide)
        have havoids : Text.Avoids ('<' :: '?' :: (name ++ [blank]) <+: ·) comment ('-' :: rest) :=
          Text.avoids_of_not_infix (fun hoccurs => hspells (.inr ⟨name, blank, hoccurs, hname, hblank⟩))
            (by simp [dash_not_mem_name hname, hne])
        refine Text.avoids_iff.1 havoids front back hcomment hback ?_
        rw [hafter]
        exact ⟨after, by simp⟩

/-- Before a dash the first code is found by reading. -/
theorem spellsNative_iff : SpellsNative comment ↔ (nextCode? (comment ++ ['-'])).isSome = true := by
  rw [← not_iff_not, ← @avoids_opensCode_iff comment [], Bool.not_eq_true, Option.isSome_eq_false_iff,
    Option.isNone_iff_eq_none]
  constructor
  · intro havoids
    rw [nextCode?_append_of_avoids havoids]
    rfl
  · intro hnone
    have havoids := avoids_of_nextCode?_eq_none hnone
    rw [Text.avoids_append] at havoids
    exact havoids.1

instance : Decidable (SpellsNative comment) := decidable_of_iff _ spellsNative_iff.symm

theorem avoids_opensCode_of_not_mem {s : Text} (h : '<' ∉ s) (t : Text) : Text.Avoids (opensCode · = true) s t := by
  apply Text.avoids_of_head
  intro c hc u hopens
  obtain ⟨v, hv⟩ := exists_of_opensCode hopens
  exact h ((List.cons.inj hv).1 ▸ hc)

end

open Markers (standardComments)

/-- A text with a comment in it. -/
def commented (before comment after : Text) : Text :=
  before ++ standardComments.opening ++ comment ++ standardComments.closing ++ after

section

variable {before comment after front t : Text}

/-- In a text without code around the comment, code starts where the comment starts it. -/
theorem nextCode?_commented (hbefore : '<' ∉ before) (hafter : '<' ∉ after) :
    (¬ SpellsNative comment → nextCode? (commented before comment after) = none) ∧
      (SpellsNative comment → ∃ front back code rest, comment = front ++ back ∧
        nextCode? (commented before comment after) =
          some (before ++ standardComments.opening ++ front, code, rest)) := by
  have hopening : '<' ∉ before ++ standardComments.opening := by
    simp [hbefore, standardComments]
  have htext : commented before comment after =
      before ++ standardComments.opening ++ (comment ++ '-' :: ("-\x7d\x7d".toList ++ after)) := by
    simp [commented, standardComments]
  constructor
  · intro hspells
    have hrest : '<' ∉ '-' :: ("-\x7d\x7d".toList ++ after) := by simp [hafter]
    have hnone : nextCode? ('-' :: ("-\x7d\x7d".toList ++ after)) = none :=
      nextCode?_eq_none_of_not_infix fun hoccurs => hrest (hoccurs.subset (by decide))
    rw [htext, nextCode?_append_of_avoids (avoids_opensCode_of_not_mem hopening _),
      nextCode?_append_of_avoids (avoids_opensCode_iff.2 hspells), hnone]
    rfl
  · intro hspells
    have hnot : ¬ Text.Avoids (opensCode · = true) comment ('-' :: ("-\x7d\x7d".toList ++ after)) :=
      fun havoids => avoids_opensCode_iff.1 havoids hspells
    obtain ⟨front, back, rfl, hfront, hopens⟩ := Text.exists_first_of_not_avoids hnot
    obtain ⟨u, hu⟩ := exists_of_opensCode hopens
    rw [hu] at hopens
    have hcode := nextCode?_of_opensCode hopens rfl
    refine ⟨front, back, '<' :: '?' :: (splitCode .code u).1, (splitCode .code u).2, rfl, ?_⟩
    rw [htext, nextCode?_append_of_avoids (avoids_opensCode_of_not_mem hopening _), List.append_assoc front,
      nextCode?_append_of_avoids hfront, hu, hcode]
    simp

theorem cut?_opening (hbefore : '\x7b' ∉ before) :
    Text.cut? standardComments.opening (before ++ (standardComments.opening ++ t)) = some (before, t) :=
  Text.cut?_of_avoids (Text.avoids_of_not_mem hbefore)

theorem stripComments_commented (hbefore : '\x7b' ∉ before) (hafter : '\x7b' ∉ after)
    (hcomment : ¬ standardComments.closing <:+: comment) (offset : Nat) :
    standardComments.stripComments offset (commented before comment after) = .ok (before ++ after) := by
  have hclose := Text.cut?_of_avoids (Markers.avoids_standardComments_closing hcomment after)
  have hlater : ¬ standardComments.opening <:+: after := fun hoccurs => hafter (hoccurs.subset (by decide))
  simp only [commented, List.append_assoc]
  rw [Markers.stripComments_of_closed (cut?_opening hbefore) hclose, Markers.stripComments_of_not_infix hlater]
  rfl

/-- A comment that is cut off before its end is reported where it opens. -/
theorem stripComments_cut_off (hbefore : '\x7b' ∉ before) (hfront : ¬ standardComments.closing <:+: front)
    (offset : Nat) :
    standardComments.stripComments offset (before ++ standardComments.opening ++ front) =
      .error (.unterminatedTag .comment (offset + Text.byteLength before)) := by
  rw [List.append_assoc]
  exact Markers.stripComments_of_unclosed (cut?_opening hbefore) (Text.cut?_eq_none_iff.2 hfront)

theorem next?_eq_none_of_not_mem (ht : '<' ∉ t) : DirectiveTag.next? none t = none := by
  rw [DirectiveTag.next?_eq_none_iff]
  rintro front c back rfl
  simp at ht

end

namespace Transpiler

variable {directives : Registry} {before comment after : Text}

/-- A template fails with the error of its first span, if that is markup. -/
theorem render_eq_error_of_markup {transpiler : Transpiler} {source t : Text} {error : TranspileError}
    (hspan : (Span.ofText source).head? = some ⟨.markup, t, 0⟩)
    (hmarkup : ∀ answers, transpiler.renderMarkup answers t .start = (.error error, .start)) :
    transpiler.render source = .error error := by
  obtain ⟨spans, hspans⟩ := List.head?_eq_some_iff.1 hspan
  have hrun : ∀ answers, transpiler.renderSpans answers (Span.ofText source) .start = (.error error, .start) := by
    intro answers
    rw [hspans, renderSpans_markup]
    exact Run.bind_apply_error (hmarkup answers)
  rw [render, renderWith_eq, hrun]
  rfl

/-- Markup in which no directives are left with its comments goes through the echo passes alone. -/
theorem renderMarkup_of_stripped {t kept : Text} (hstrip : standardComments.stripComments 0 t = .ok kept)
    (hangle : '<' ∉ kept) (answers : Answers) :
    (standard directives).renderMarkup answers t .start =
      (EchoPasses.standard.transpilePieces (Piece.ofMarkup kept 0), .start) := by
  have hstart : (standard directives).comments.stripComments Context.start.offset t = .ok kept := hstrip
  rw [renderMarkup_apply rfl, hstart]
  dsimp only
  rw [DirectiveTag.split, DirectiveTag.splitAfter_of_none (next?_eq_none_of_not_mem hangle)]
  rfl

/-- Markup is what is left of it without its comments, if that holds no tags. -/
theorem renderMarkup_of_kept {t kept : Text} (hstrip : standardComments.stripComments 0 t = .ok kept)
    (hbrace : '\x7b' ∉ kept) (hangle : '<' ∉ kept) (answers : Answers) :
    (standard directives).renderMarkup answers t .start = (.ok kept, .start) := by
  rw [renderMarkup_of_stripped hstrip hangle,
    EchoPasses.transpilePieces_of_settles (EchoPasses.settles_ofMarkup hbrace 0)]

/-- A comment in a text without tags is dropped with all that it holds, unless native code starts in
    it: then the comment has no end, and is reported where it opens. -/
theorem render_commented (hbrace : '\x7b' ∉ before ++ after) (hangle : '<' ∉ before ++ after)
    (hcomment : ¬ standardComments.closing <:+: comment) :
    (¬ SpellsNative comment →
      (standard directives).render (commented before comment after) = .ok (before ++ after)) ∧
    (SpellsNative comment →
      (standard directives).render (commented before comment after) =
        .error (.unterminatedTag .comment (Text.byteLength before))) := by
  obtain ⟨hbrace₁, hbrace₂⟩ := not_or.1 (mt List.mem_append.2 hbrace)
  obtain ⟨hangle₁, hangle₂⟩ := not_or.1 (mt List.mem_append.2 hangle)
  obtain ⟨hwhole, hcut⟩ := @nextCode?_commented before comment after hangle₁ hangle₂
  constructor
  · intro hspells
    have hne : commented before comment after ≠ [] := by simp [commented, standardComments]
    apply render_of_markup
    · rw [Span.ofText, Span.ofTextAt_of_none (hwhole hspells), Span.markup, if_neg hne]
    · exact renderMarkup_of_kept (stripComments_commented hbrace₁ hbrace₂ hcomment 0) hbrace hangle
  · intro hspells
    obtain ⟨front, back, code, rest, rfl, hnext⟩ := hcut hspells
    have hfront : ¬ standardComments.closing <:+: front :=
      fun hoccurs => hcomment (hoccurs.trans (List.prefix_append front back).isInfix)
    have hne : before ++ standardComments.opening ++ front ≠ [] := by simp [standardComments]
    apply render_eq_error_of_markup (t := before ++ standardComments.opening ++ front)
    · rw [Span.ofText, Span.ofTextAt_of_some hnext, Span.markup, if_neg hne]
      rfl
    · intro answers
      have hstrip : (standard directives).comments.stripComments Context.start.offset
          (before ++ standardComments.opening ++ front) =
            .error (.unterminatedTag .comment (0 + Text.byteLength before)) :=
        stripComments_cut_off hbrace₁ hfront 0
      rw [renderMarkup_apply rfl, hstrip, Nat.zero_add]

/-- A comment with tags, markers, quotes and line breaks in it. -/
def busyComment : Text := " \x7b\x7b x \x7d\x7d <@if(' \x7b!!\n \x7b\x7b-- <?xml <?php".toList

/-- A comment with native code in it. -/
def codeComment : Text := " <?php f(); ?> ".toList

theorem render_commented_busyComment :
    (standard .builtins).render (commented "a ".toList busyComment " b".toList) = .ok "a  b".toList ∧
      (standard .builtins).render (commented "a ".toList codeComment " b".toList) =
        .error (.unterminatedTag .comment 2) := by
  have hbrace : '\x7b' ∉ "a ".toList ++ " b".toList := by decide
  have hangle : '<' ∉ "a ".toList ++ " b".toList := by decide
  have hbusy : ¬ standardComments.closing <:+: busyComment := by decide +kernel
  have hcode : ¬ standardComments.closing <:+: codeComment := by decide +kernel
  exact ⟨(render_commented hbrace hangle hbusy).1 (by decide +kernel),
    (render_commented hbrace hangle hcode).2 (by decide +kernel)⟩

/-- Native code takes away the end of the comment that it stands in. -/
theorem render_codeComment_ne :
    ('\x7b' ∉ "ab".toList ∧ '@' ∉ "ab".toList ∧ '<' ∉ "ab".toList) ∧
      ¬ standardComments.closing <:+: codeComment ∧
      (standard .builtins).render (commented ['a'] codeComment ['b']) ≠ .ok "ab".toList := by
  decide +kernel

end Transpiler

end Template
