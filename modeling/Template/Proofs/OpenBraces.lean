import Template.Proofs.CommentErased
import Template.Proofs.CutMarkup

/-! # Three braces that nothing closes

Three braces open an escaped echo tag. When no closing marker of that family follows them, what is
reported depends on what takes some of the braces first: with two dashes the last two open a comment,
and the last one may open a raw tag. Otherwise the tag is reported as the escaped one, at its first
brace, although a regular tag could begin there too.
-/

namespace Template

/-- A text with three opening braces in it. -/
def openBraces (before after : Text) : Text := before ++ (EchoPasses.standard.escaped.opening ++ after)

namespace Markers

variable {markers : Markers} {s t : Text}

theorem nextTag?_of_not_infix_closing (h : ¬ markers.closing <:+: t) : markers.nextTag? t = none := by
  rw [nextTag?_eq_none_iff]
  rintro before inside after rfl
  exact absurd ⟨before ++ (markers.opening ++ inside), after, by simp only [List.append_assoc]⟩ h

/-- An opening marker that no closing marker follows in markup is unterminated. -/
theorem unterminated?_of_open {later : List (Text × Nat)} (hs : Text.Avoids (markers.opening <+: ·) s
      (markers.opening ++ t)) (ht : ¬ markers.closing <:+: t)
    (hlater : ∀ m ∈ later, ¬ markers.closing <:+: m.1) :
    markers.unterminated? (s ++ (markers.opening ++ t)) later = some (Text.byteLength s) := by
  have hany : later.any (fun m => Text.contains markers.closing m.1) = false := by
    rw [List.any_eq_false]
    exact fun m hm hcontains => hlater m hm (Text.contains_iff.1 hcontains)
  have hcontains : ¬ Text.contains markers.closing t = true := fun h => ht (Text.contains_iff.1 h)
  have hfirst := @firstUnclosed?_of_some markers _ 0 _ _ (Text.cut?_of_avoids hs)
  rw [if_neg hcontains, Nat.zero_add] at hfirst
  exact (if_neg (by rw [hany]; exact Bool.false_ne_true)).trans hfirst

end Markers

namespace EchoPasses

variable {family : EchoFamily} {before after rest s t : Text} {tag : EchoTag}

theorem avoids_opening_of_not_mem (family : EchoFamily) (hs : '\x7b' ∉ s) (t : Text) :
    Text.Avoids ((standard.markers family).opening <+: ·) s t := by
  cases family <;> exact Text.avoids_of_not_mem hs

theorem avoids_tag?_of_not_mem (family : EchoFamily) (hbrace : '\x7b' ∉ s) (hat : '@' ∉ s) (t : Text) :
    Text.Avoids (fun u => (standard.markers family).tag? u ≠ none) s t := by
  have hhead : ∀ c ∈ s, c ≠ '\x7b' ∧ c ≠ '@' := fun c hc =>
    ⟨fun h => hbrace (h ▸ hc), fun h => hat (h ▸ hc)⟩
  exact (Segment.avoids_opensAt_of_head hhead).mono fun u hu =>
    Markers.opening_isPrefix_of_tag?_ne_none hu

/-- Raw tags are looked for from the third brace on. -/
theorem raw_avoids_braces (t : Text) :
    Text.Avoids (fun u => standard.raw.tag? u ≠ none) ['\x7b', '\x7b'] ('\x7b' :: t) := by
  refine Text.Avoids.mono (p := fun u => standard.raw.opening <+: u ∨ escapeMarker :: standard.raw.opening <+: u)
    ?_ fun u hu => Markers.opening_isPrefix_of_tag?_ne_none hu
  simp [standard, escapeMarker, List.cons_prefix_cons]

theorem raw_nextTag?_openBraces (hbrace : '\x7b' ∉ before) (hat : '@' ∉ before) :
    standard.raw.nextTag? (openBraces before after) =
      (standard.raw.nextTag? ('\x7b' :: after)).map fun (front, found) =>
        (before ++ ['\x7b', '\x7b'] ++ front, found) := by
  have havoids : Text.Avoids (fun u => standard.raw.tag? u ≠ none) (before ++ ['\x7b', '\x7b'])
      ('\x7b' :: after) :=
    Text.avoids_append.2 ⟨avoids_tag?_of_not_mem .raw hbrace hat _, raw_avoids_braces after⟩
  have hnext := Markers.nextTag?_append_of_avoids havoids
  rw [← hnext, openBraces]
  simp [standard]

theorem raw_nextTag?_eq_none (hbrace : '\x7b' ∉ before ++ after) (hat : '@' ∉ before)
    (hraw : ¬ standard.raw.StartsTag ('\x7b' :: after)) :
    standard.raw.nextTag? (openBraces before after) = none := by
  obtain ⟨hbefore, hafter⟩ := not_or.1 (mt List.mem_append.2 hbrace)
  have htag : standard.raw.tag? ('\x7b' :: after) = none := by
    rw [Markers.tag?_of_head_ne (by simp [escapeMarker])]
    exact Markers.tagFromOpening?_eq_none_iff.2 hraw
  have hlater : standard.raw.nextTag? after = none :=
    Markers.nextTag?_of_not_infix (opening_not_infix_of_not_mem .raw hafter)
  rw [raw_nextTag?_openBraces hbefore hat, Markers.nextTag?_cons _ _ htag, hlater]
  rfl

/-- A raw tag that is left open does not begin before the third brace. -/
theorem raw_unterminated?_lt (hbefore : '\x7b' ∉ before) (after : Text) (later : List (Text × Nat)) :
    ∀ place ∈ standard.raw.unterminated? (openBraces before after) later, Text.byteLength before < place := by
  intro place hplace
  have havoids : Text.Avoids (standard.raw.opening <+: ·) (before ++ ['\x7b', '\x7b']) ('\x7b' :: after) :=
    Text.avoids_append.2 ⟨avoids_opening_of_not_mem .raw hbefore _,
      by simp [standard, List.cons_prefix_cons]⟩
  have htext : openBraces before after = before ++ ['\x7b', '\x7b'] ++ '\x7b' :: after := by
    simp [openBraces, standard]
  unfold Markers.unterminated? at hplace
  split at hplace
  case isTrue => cases hplace
  case isFalse =>
    rw [htext, Markers.firstUnclosed?_append_of_avoids 0 havoids] at hplace
    obtain ⟨front, back, -, rfl⟩ := Markers.firstUnclosed?_eq_some hplace
    simp only [Text.byteLength_append]
    have : 0 < Text.byteLength ['\x7b', '\x7b'] := by decide
    omega

theorem closing_not_infix_openBraces (hclosing : ¬ standard.regular.closing <:+: after) :
    ¬ standard.regular.closing <:+: '\x7b' :: after := by
  rw [List.infix_cons_iff]
  rintro (hbegins | hlater)
  · simp [standard, List.cons_prefix_cons] at hbegins
  · exact hclosing hlater

/-- A closing marker of the escaped family begins with one of the regular family. -/
theorem not_infix_escaped (h : ¬ standard.regular.closing <:+: t) :
    ¬ standard.escaped.closing <:+: t := fun hoccurs => h (List.IsInfix.trans (by decide) hoccurs)

/-- The escaped and the regular family report the first brace, and the escaped one is asked first. -/
theorem checkTerminated_openBraces (hbefore : '\x7b' ∉ before)
    (hclosing : ¬ standard.regular.closing <:+: after) :
    standard.checkTerminated [(openBraces before after, 0)] =
      .error (.unterminatedTag .escapedEcho (Text.byteLength before)) := by
  have hescaped : standard.escaped.unterminated? (openBraces before after) [] =
      some (Text.byteLength before) :=
    Markers.unterminated?_of_open (avoids_opening_of_not_mem .escaped hbefore _)
      (not_infix_escaped hclosing) (by simp)
  have hregular : standard.regular.unterminated? (openBraces before after) [] =
      some (Text.byteLength before) :=
    Markers.unterminated?_of_open (t := '\x7b' :: after)
      (avoids_opening_of_not_mem .regular hbefore _)
      (closing_not_infix_openBraces hclosing) (by simp)
  have hfirst : standard.unterminated? (openBraces before after) [] =
      some (Text.byteLength before, .escapedEcho) := by
    have hraw := raw_unterminated?_lt hbefore after []
    simp only [unterminated?_eq_foldl, families, List.foldl_cons, List.foldl_nil, markers, hescaped,
      hregular]
    cases hplace : standard.raw.unterminated? (openBraces before after) [] with
    | none => simp [earlier, EchoFamily.kind]
    | some place =>
      have hlt := hraw place hplace
      simp [earlier, EchoFamily.kind, hlt]
  simp only [checkTerminated, hfirst, Nat.zero_add]

theorem nextTag?_eq_none_of_closing (hbrace : '\x7b' ∉ s) (hat : '@' ∉ s)
    (ht : ¬ (standard.markers family).closing <:+: t) : (standard.markers family).nextTag? (s ++ t) = none := by
  rw [Markers.nextTag?_append_of_avoids (avoids_tag?_of_not_mem family hbrace hat t),
    Markers.nextTag?_of_not_infix_closing ht]
  rfl

theorem transpilePieces_openBraces (hbrace : '\x7b' ∉ before ++ after) (hat : '@' ∉ before)
    (hclosing : ¬ standard.regular.closing <:+: after)
    (hraw : ¬ standard.raw.StartsTag ('\x7b' :: after)) :
    standard.transpilePieces (Piece.ofMarkup (openBraces before after) 0) =
      .error (.unterminatedTag .escapedEcho (Text.byteLength before)) := by
  have hbefore : '\x7b' ∉ before := fun hmem => hbrace (List.mem_append_left after hmem)
  have hbraces : ¬ standard.regular.closing <:+: standard.escaped.opening ++ after := by
    simpa [standard] using closing_not_infix_openBraces
      (closing_not_infix_openBraces (closing_not_infix_openBraces hclosing))
  have hnone : ∀ family, (standard.markers family).nextTag? (openBraces before after) = none := by
    intro family
    cases family with
    | raw => exact raw_nextTag?_eq_none hbrace hat hraw
    | escaped => exact nextTag?_eq_none_of_closing hbefore hat (not_infix_escaped hbraces)
    | regular => exact nextTag?_eq_none_of_closing hbefore hat hbraces
  have hpasses : standard.rewrite (Piece.ofMarkup (openBraces before after) 0) =
      Piece.ofMarkup (openBraces before after) 0 := by
    simp only [rewrite, pass_ofMarkup_of_none 0 (hnone _)]
  have hne : openBraces before after ≠ [] := by simp [openBraces, standard]
  have hmarkups : Piece.markups (Piece.ofMarkup (openBraces before after) 0) =
      [(openBraces before after, 0)] := by
    rw [Piece.ofMarkup, if_neg hne]
    rfl
  rw [transpilePieces_eq, hpasses, hmarkups, checkTerminated_openBraces hbefore hclosing]

theorem opening_not_infix_twoBraces (hbefore : '\x7b' ∉ before) (hfamily : family ≠ .regular) :
    ¬ (standard.markers family).opening <:+: before ++ ['\x7b', '\x7b'] := by
  rw [← Text.cut?_eq_none_iff, Text.cut?_append_of_avoids (avoids_opening_of_not_mem family hbefore _)]
  cases family with
  | raw | escaped => rfl
  | regular => exact absurd rfl hfamily

/-- Two braces at the end of a text open a regular tag. -/
theorem unterminated?_twoBraces {later : List (Text × Nat)} (hbefore : '\x7b' ∉ before)
    (hlater : ∀ m ∈ later, ¬ standard.regular.closing <:+: m.1) :
    standard.unterminated? (before ++ ['\x7b', '\x7b']) later = some (Text.byteLength before, .regularEcho) := by
  have hregular : standard.regular.unterminated? (before ++ ['\x7b', '\x7b']) later =
      some (Text.byteLength before) :=
    Markers.unterminated?_of_open (t := []) (avoids_opening_of_not_mem .regular hbefore _) (by decide) hlater
  have hothers : ∀ family, family ≠ .regular →
      (standard.markers family).unterminated? (before ++ ['\x7b', '\x7b']) later = none := fun family hfamily =>
    Markers.unterminated?_eq_none
      (Markers.closes_of_not_infix (opening_not_infix_twoBraces hbefore hfamily)) _
  have hraw := hothers .raw (by decide)
  have hescaped := hothers .escaped (by decide)
  simp only [markers] at hraw hescaped
  simp only [unterminated?_eq_foldl, families, List.foldl_cons, List.foldl_nil, markers, hraw, hescaped, hregular]
  rfl

/-- When the third brace begins a raw tag, only this tag is rewritten. -/
theorem exists_rewrite_openBraces_of_raw (hbrace : '\x7b' ∉ before ++ after) (hat : '@' ∉ before)
    (hraw : standard.raw.StartsTag ('\x7b' :: after)) : ∃ code rest next, rest <:+ after ∧
      standard.rewrite (Piece.ofMarkup (openBraces before after) 0) =
        Piece.ofMarkup (before ++ ['\x7b', '\x7b']) 0 ++ .output code :: Piece.ofMarkup rest next := by
  obtain ⟨hbefore, hafter⟩ := not_or.1 (mt List.mem_append.2 hbrace)
  obtain ⟨⟨tag, rest⟩, htag⟩ := Option.isSome_iff_exists.1
    ((@Markers.tagFromOpening?_isSome_iff standard.raw false _).2 hraw)
  obtain ⟨hplain, hsource⟩ := Markers.tagFromOpening?_eq_some htag
  have hnext : (standard.markers .raw).nextTag? (openBraces before after) =
      some (before ++ ['\x7b', '\x7b'], tag, rest) := by
    have hhead : standard.raw.nextTag? ('\x7b' :: after) = some ([], tag, rest) := by
      rw [Markers.nextTag?, Markers.tag?_of_head_ne (by simp [escapeMarker]), htag]
    rw [markers, raw_nextTag?_openBraces hbefore hat, hhead]
    simp
  obtain ⟨start, next, hpass⟩ := pass_ofMarkup_of_some 0 hnext
  have hrest : rest <:+ after := by
    refine ⟨(tag.unescaped standard.raw).tail, ?_⟩
    have htail := congrArg List.tail hsource
    rw [List.tail_append_of_ne_nil (by simp [EchoTag.unescaped, standard])] at htail
    exact htail.symm
  -- Neither the text before the raw tag nor the text behind it holds what a later pass could take.
  have hlater : ∀ family, standard.pass family (Piece.ofMarkup rest next) = Piece.ofMarkup rest next :=
    fun family => pass_ofMarkup_of_none next
      (Markers.nextTag?_of_not_infix (opening_not_infix_of_not_mem family fun hmem => hafter (hrest.subset hmem)))
  have hfirst : ∀ family, standard.pass family (Piece.ofMarkup (before ++ ['\x7b', '\x7b']) 0) =
      Piece.ofMarkup (before ++ ['\x7b', '\x7b']) 0 := fun family =>
    pass_ofMarkup_of_none 0 (nextTag?_eq_none_of_closing hbefore hat (by cases family <;> decide))
  have hcode : standard.rewriteTag .raw start tag =
      .output (echoCode (standard.value .raw tag.expression) tag.lineBreak) :=
    if_neg (by rw [hplain]; exact Bool.false_ne_true)
  refine ⟨echoCode (standard.value .raw tag.expression) tag.lineBreak, rest, next, hrest, ?_⟩
  simp only [rewrite, hpass, hcode, pass_append, pass_output_cons, hfirst, hlater]

/-- When the third brace begins a raw tag, the first two are left to report. -/
theorem transpilePieces_openBraces_of_raw (hbrace : '\x7b' ∉ before ++ after) (hat : '@' ∉ before)
    (hclosing : ¬ standard.regular.closing <:+: after) (hraw : standard.raw.StartsTag ('\x7b' :: after)) :
    standard.transpilePieces (Piece.ofMarkup (openBraces before after) 0) =
      .error (.unterminatedTag .regularEcho (Text.byteLength before)) := by
  obtain ⟨code, rest, next, hrest, hrewrite⟩ := exists_rewrite_openBraces_of_raw hbrace hat hraw
  have hunclosed : ∀ m ∈ Piece.markups (Piece.ofMarkup rest next), ¬ standard.regular.closing <:+: m.1 := by
    rintro ⟨t, offset⟩ hm hoccurs
    cases Piece.eq_of_mem_ofMarkup (Piece.mem_markups.1 hm)
    exact hclosing (hoccurs.trans hrest.isInfix)
  have hopen := unterminated?_twoBraces (not_or.1 (mt List.mem_append.2 hbrace)).1 hunclosed
  have hmarkups : Piece.markups (standard.rewrite (Piece.ofMarkup (openBraces before after) 0)) =
      (before ++ ['\x7b', '\x7b'], 0) :: Piece.markups (Piece.ofMarkup rest next) := by
    have hne : before ++ ['\x7b', '\x7b'] ≠ [] := by simp
    rw [hrewrite, Piece.ofMarkup, if_neg hne]
    rfl
  simp only [transpilePieces_eq, hmarkups, checkTerminated, hopen, Nat.zero_add]

end EchoPasses

open Markers (standardComments)

section

variable {before after : Text}

/-- Two dashes behind the braces make the last two of them open a comment. -/
theorem cut?_comment_openBraces (hbefore : '\x7b' ∉ before) (h : ['-', '-'] <+: after) :
    ∃ inside, after = ['-', '-'] ++ inside ∧
      Text.cut? standardComments.opening (openBraces before after) = some (before ++ ['\x7b'], inside) := by
  obtain ⟨inside, rfl⟩ := h
  refine ⟨inside, rfl, ?_⟩
  have havoids : Text.Avoids (standardComments.opening <+: ·) (before ++ ['\x7b'])
      (standardComments.opening ++ inside) :=
    Text.avoids_append.2 ⟨Text.avoids_of_not_mem hbefore, by simp [standardComments, List.cons_prefix_cons]⟩
  have hcut := Text.cut?_of_avoids havoids
  simpa [openBraces, standardComments, EchoPasses.standard] using hcut

theorem comment_not_infix_openBraces (hbrace : '\x7b' ∉ before ++ after) (h : ¬ ['-', '-'] <+: after) :
    ¬ standardComments.opening <:+: openBraces before after := by
  obtain ⟨hbefore, hafter⟩ := not_or.1 (mt List.mem_append.2 hbrace)
  have hbraces : Text.Avoids (standardComments.opening <+: ·) EchoPasses.standard.escaped.opening after := by
    have hhead : ¬ ['\x7b', '-', '-'] <+: after := fun hbegins => hafter (hbegins.subset (by decide))
    simpa [standardComments, EchoPasses.standard, List.cons_prefix_cons] using And.intro h hhead
  have hlater : Text.cut? standardComments.opening after = none :=
    Text.cut?_eq_none_iff.2 fun hoccurs => hafter (hoccurs.subset (by decide))
  have hstart : Text.Avoids (standardComments.opening <+: ·) before
      (EchoPasses.standard.escaped.opening ++ after) := Text.avoids_of_not_mem hbefore
  rw [← Text.cut?_eq_none_iff, openBraces, Text.cut?_append_of_avoids hstart,
    Text.cut?_append_of_avoids hbraces, hlater]
  rfl

end

namespace Transpiler

variable {directives : Registry} {before after : Text}

theorem angle_not_mem_openBraces (hangle : '<' ∉ before ++ after) : '<' ∉ openBraces before after := by
  have hopening : '<' ∉ EchoPasses.standard.escaped.opening := by decide
  simp only [openBraces, List.mem_append, not_or] at hangle ⊢
  exact ⟨hangle.1, hopening, hangle.2⟩

theorem ofText_openBraces (hangle : '<' ∉ before ++ after) :
    Span.ofText (openBraces before after) = [⟨.markup, openBraces before after, 0⟩] := by
  have hcode : nextCode? (openBraces before after) = none := by
    apply nextCode?_eq_none_of_not_infix
    exact fun hoccurs => angle_not_mem_openBraces hangle (hoccurs.subset (by decide))
  have hne : openBraces before after ≠ [] := by simp [openBraces, EchoPasses.standard]
  rw [Span.ofText, Span.ofTextAt_of_none hcode, Span.markup, if_neg hne]

/-- Three braces that no two closing braces follow are always reported: as the opening of a comment,
    if two dashes make the last two of them one, as a regular tag, if the last of them begins a raw
    tag, and otherwise as an escaped tag. -/
theorem render_openBraces (hbrace : '\x7b' ∉ before ++ after) (hat : '@' ∉ before ++ after)
    (hangle : '<' ∉ before ++ after) (hclosing : ¬ EchoPasses.standard.regular.closing <:+: after) :
    (['-', '-'] <+: after → (standard directives).render (openBraces before after) =
      .error (.unterminatedTag .comment (Text.byteLength before + 1))) ∧
    (EchoPasses.standard.raw.StartsTag ('\x7b' :: after) →
      (standard directives).render (openBraces before after) =
        .error (.unterminatedTag .regularEcho (Text.byteLength before))) ∧
    (¬ ['-', '-'] <+: after → ¬ EchoPasses.standard.raw.StartsTag ('\x7b' :: after) →
      (standard directives).render (openBraces before after) =
        .error (.unterminatedTag .escapedEcho (Text.byteLength before))) := by
  obtain ⟨hbefore, -⟩ := not_or.1 (mt List.mem_append.2 hbrace)
  have hescape : '@' ∉ before := fun hmem => hat (List.mem_append_left after hmem)
  have hspan := ofText_openBraces hangle
  have hmarkup (hdashes : ¬ ['-', '-'] <+: after) (answers : Answers) :
      (standard directives).renderMarkup answers (openBraces before after) .start =
        (EchoPasses.standard.transpilePieces (Piece.ofMarkup (openBraces before after) 0), .start) :=
    renderMarkup_of_stripped
      (Markers.stripComments_of_not_infix (comment_not_infix_openBraces hbrace hdashes))
      (angle_not_mem_openBraces hangle) answers
  refine ⟨fun hdashes => ?_, fun hraw => ?_, fun hdashes hraw => ?_⟩
  · obtain ⟨inside, hafter, hopen⟩ := cut?_comment_openBraces hbefore hdashes
    have hclose : Text.cut? Markers.standardComments.closing inside = none := by
      rw [Text.cut?_eq_none_iff]
      intro hoccurs
      have hbraces : EchoPasses.standard.regular.closing <:+: Markers.standardComments.closing := by decide
      exact hclosing (hafter ▸ (hbraces.trans hoccurs).trans (List.infix_append_right ..))
    have hstrip : (standard directives).comments.stripComments Context.start.offset
        (openBraces before after) = .error (.unterminatedTag .comment (0 + Text.byteLength (before ++ ['\x7b']))) :=
      Markers.stripComments_of_unclosed hopen hclose
    have hplace : 0 + Text.byteLength (before ++ ['\x7b']) = Text.byteLength before + 1 := by
      rw [Text.byteLength_append, Nat.zero_add]
      rfl
    refine render_of_markup hspan fun answers => ?_
    rw [renderMarkup_apply rfl, hstrip, hplace]
  · have hdashes : ¬ ['-', '-'] <+: after := by
      -- A raw tag goes on with an exclamation mark.
      rintro ⟨inside, rfl⟩
      obtain ⟨body, rest, -, htext⟩ := hraw
      simp [EchoPasses.standard] at htext
    refine render_of_markup hspan fun answers => ?_
    rw [hmarkup hdashes, EchoPasses.transpilePieces_openBraces_of_raw hbrace hescape hclosing hraw]
  · refine render_of_markup hspan fun answers => ?_
    rw [hmarkup hdashes, EchoPasses.transpilePieces_openBraces hbrace hescape hclosing hraw]

/-- The three ways in which unclosed braces are reported. -/
theorem render_openBraces_three :
    (standard .builtins).render (openBraces "ab".toList "-- c".toList) = .error (.unterminatedTag .comment 3) ∧
      (standard .builtins).render (openBraces "ab".toList "!! c !!\x7d".toList) =
        .error (.unterminatedTag .regularEcho 2) ∧
      (standard .builtins).render (openBraces "ab".toList " $c".toList) =
        .error (.unterminatedTag .escapedEcho 2) := by
  refine ⟨?_, ?_, ?_⟩
  · exact (render_openBraces (by decide) (by decide) (by decide) (by decide)).1 (by decide)
  · have hraw : EchoPasses.standard.raw.StartsTag ('\x7b' :: "!! c !!\x7d".toList) :=
      ⟨" c ".toList, [], by decide, by decide⟩
    exact (render_openBraces (by decide) (by decide) (by decide) (by decide)).2.1 hraw
  · have hraw : ¬ EchoPasses.standard.raw.StartsTag ('\x7b' :: " $c".toList) :=
      (@Markers.tagFromOpening?_eq_none_iff EchoPasses.standard.raw false _).1 (by decide)
    exact (render_openBraces (by decide) (by decide) (by decide) (by decide)).2.2 (by decide) hraw

/-- Three braces before two dashes are reported as a comment. -/
theorem render_openBraces_comment_ne :
    ('\x7b' ∉ "-- c".toList ∧ '@' ∉ "-- c".toList ∧ '<' ∉ "-- c".toList) ∧
      ¬ EchoPasses.standard.escaped.closing <:+: "-- c".toList ∧
      (standard .builtins).render (openBraces [] "-- c".toList) ≠
        .error (.unterminatedTag .escapedEcho 0) := by
  decide +kernel

end Transpiler

end Template
