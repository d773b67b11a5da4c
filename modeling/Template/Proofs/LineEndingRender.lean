import Template.Proofs.FooterTail
import Template.Proofs.LineEndingPass

/-! # Templates and line endings

With the built-in directives a template gives the same whichever way its line breaks are written, but
for the line feeds at the start of a document with a layout: they are dropped before the footer, and
line breaks with carriage returns are not.
-/

namespace Template

open Text

namespace Action

/-- Neither action asks for anything, and the other one gives and pushes the same with the line breaks
    written in the other way. -/
inductive Crlf : Action Text → Action Text → Prop where
  | done {t : Text} (hreturn : '\r' ∉ t) : Crlf (.done t) (.done (Text.crlf t))
  | fail (error : TranspileError) : Crlf (.fail error) (.fail error)
  | pushFooter {line : Text} {next next' : Action Text} (hreturn : '\r' ∉ line) (hnext : Crlf next next') :
      Crlf (.pushFooter line next) (.pushFooter (Text.crlf line) next')

end Action

namespace Registry

/-- With the line breaks of its argument written in the other way, a directive does the same in that way. -/
def KeepsLineBreaks (handler : Handler) : Prop :=
  ∀ argument : Option Text, (∀ text ∈ argument, '\r' ∉ text) →
    Action.Crlf (handler argument) (handler (argument.map crlf))

section

variable {argument : Option Text} {directive before after : String}

theorem required_some (directive text : Text) : required directive (some text) =
    if text.stripParentheses.isAllBlank then required directive none else .done text := by
  unfold required
  rw [Option.filter_some]
  cases text.stripParentheses.isAllBlank <;> rfl

theorem required_crlf (directive : Text) (argument : Option Text) :
    (∃ text, argument = some text ∧ required directive argument = .done text ∧
        required directive (argument.map crlf) = .done (crlf text)) ∨
      ∃ error, required directive argument = .fail error ∧ required directive (argument.map crlf) = .fail error := by
  cases argument with
  | none => exact .inr ⟨_, rfl, rfl⟩
  | some text =>
    rw [Option.map_some, required_some, required_some, stripParentheses_crlf, isAllBlank_crlf]
    split
    case isTrue => exact .inr ⟨_, rfl, rfl⟩
    case isFalse => exact .inl ⟨text, rfl, rfl, rfl⟩

theorem constant_keepsLineBreaks {code : String} (h : Unbroken code.toList) : KeepsLineBreaks (constant code) := by
  intro argument _
  have hcode := Action.Crlf.done h.carriageReturn
  rwa [crlf_of_not_mem h.lineFeed] at hcode

theorem surround_keepsLineBreaks (hbefore : Unbroken before.toList) (hafter : Unbroken after.toList) :
    KeepsLineBreaks (surround directive before after) := by
  intro argument hargument
  unfold surround
  rcases required_crlf directive.toList argument with ⟨text, rfl, hdone, hdone'⟩ | ⟨error, hfails, hfails'⟩
  · rw [hdone, hdone']
    have hreturn : '\r' ∉ before.toList ++ text ++ after.toList := by
      simp [hbefore.carriageReturn, hafter.carriageReturn, hargument text rfl]
    have hcode := Action.Crlf.done hreturn
    rwa [crlf_append, crlf_append, crlf_of_not_mem hbefore.lineFeed, crlf_of_not_mem hafter.lineFeed] at hcode
  · rw [hfails, hfails']
    exact .fail error

theorem stripParentheses_subset (t : Text) : t.stripParentheses ⊆ t := by
  unfold stripParentheses
  split
  case h_1 rest =>
    cases hstrip : stripSuffix? [')'] rest with
    | none => exact List.Subset.refl _
    | some inside =>
      rw [stripSuffix?_eq_some hstrip]
      simp
  case h_2 => exact List.Subset.refl _

/-- Code around an argument without its parentheses. -/
theorem code_crlf {start stop : Text} (hstart : Unbroken start) (hstop : Unbroken stop) {text : Text}
    (hreturn : '\r' ∉ text) : '\r' ∉ start ++ text.stripParentheses ++ stop ∧
      start ++ (crlf text).stripParentheses ++ stop = crlf (start ++ text.stripParentheses ++ stop) := by
  constructor
  · intro hmem
    rw [List.mem_append, List.mem_append] at hmem
    rcases hmem with (hmem | hmem) | hmem
    · exact hstart.carriageReturn hmem
    · exact hreturn (stripParentheses_subset text hmem)
    · exact hstop.carriageReturn hmem
  · rw [stripParentheses_crlf, crlf_append, crlf_append, crlf_of_not_mem hstart.lineFeed, crlf_of_not_mem hstop.lineFeed]

theorem codeBlock_keepsLineBreaks : KeepsLineBreaks codeBlock := by
  intro argument hargument
  cases argument with
  | none => exact @constant_keepsLineBreaks "<?php" (by decide) none hargument
  | some text =>
    obtain ⟨hreturn, hcode⟩ := @code_crlf "<?php ".toList "; ?>".toList (by decide) (by decide) text
      (hargument text rfl)
    simp only [Option.map_some, codeBlock]
    rw [hcode]
    exact .done hreturn

theorem extendLayout_keepsLineBreaks : KeepsLineBreaks extendLayout := by
  intro argument hargument
  unfold extendLayout
  rcases required_crlf "extends".toList argument with ⟨text, rfl, hdone, hdone'⟩ | ⟨error, hfails, hfails'⟩
  · obtain ⟨hreturn, hcode⟩ := @code_crlf "<?php echo $__env->make(".toList
      ", get_defined_vars())->render(); ?>".toList (by decide) (by decide) text (hargument text rfl)
    rw [hdone, hdone']
    have hpush := Action.Crlf.pushFooter hreturn (.done (@List.not_mem_nil Char '\r'))
    rwa [← hcode] at hpush
  · rw [hfails, hfails']
    exact .fail error

theorem builtins_keepsLineBreaks {name : Text} {handler : Handler} (hfind : builtins.find? name = some handler) :
    KeepsLineBreaks handler := by
  rcases find?_insertAll hfind with hempty | hmem
  · cases hempty
  · simp only [List.mem_cons, List.not_mem_nil, or_false, Prod.mk.injEq] at hmem
    rcases hmem with ⟨-, rfl⟩ | ⟨-, rfl⟩ | ⟨-, rfl⟩ | ⟨-, rfl⟩ | ⟨-, rfl⟩ | ⟨-, rfl⟩ | ⟨-, rfl⟩ | ⟨-, rfl⟩ | ⟨-, rfl⟩ |
      ⟨-, rfl⟩ | ⟨-, rfl⟩
    · exact surround_keepsLineBreaks (by decide) (by decide)
    · exact surround_keepsLineBreaks (by decide) (by decide)
    · exact constant_keepsLineBreaks (by decide)
    · exact constant_keepsLineBreaks (by decide)
    · exact surround_keepsLineBreaks (by decide) (by decide)
    · exact constant_keepsLineBreaks (by decide)
    · exact surround_keepsLineBreaks (by decide) (by decide)
    · exact constant_keepsLineBreaks (by decide)
    · exact codeBlock_keepsLineBreaks
    · exact constant_keepsLineBreaks (by decide)
    · exact extendLayout_keepsLineBreaks

end

end Registry

namespace Pushing

variable {α β : Type} {Same : α → α → Prop} {Fit : β → β → Prop}

/-- If the step does not fail, the other one does not either: what they give belongs together, and the
    lines that they push are spelled alike. -/
def Crlf (Same : α → α → Prop) (pushing other : Pushing α) : Prop :=
  ∀ value, pushing.outcome = .ok value → List.Forall₂ Respelled pushing.lines other.lines ∧
    ∃ value', other.outcome = .ok value' ∧ Same value value'

theorem Crlf.pure {value value' : α} (h : Same value value') :
    Crlf Same (Pure.pure value : Pushing α) (Pure.pure value') := by
  intro result hresult
  cases hresult
  exact ⟨.nil, value', rfl, h⟩

theorem Crlf.bind {pushing other : Pushing α} {next next' : α → Pushing β} (h : Crlf Same pushing other)
    (hnext : ∀ value value', Same value value' → Crlf Fit (next value) (next' value')) :
    Crlf Fit (pushing >>= next) (other >>= next') := by
  intro result hresult
  obtain ⟨value, hvalue, hrest, hlines⟩ := exists_of_bind_eq_ok hresult
  obtain ⟨hspelled, value', hvalue', hsame⟩ := h value hvalue
  obtain ⟨hspelled', result', hresult', hfit⟩ := hnext value value' hsame result hrest
  obtain ⟨lines', outcome'⟩ := other
  cases hvalue'
  rw [hlines]
  exact ⟨List.rel_append hspelled hspelled', result', hresult', hfit⟩

end Pushing

theorem Action.Crlf.pushing {action other : Action Text} (h : action.Crlf other) {nested nested' : Text → Pushing Text}
    {echoed echoed' : Text → Except TranspileError Text} {known known' : List Text} {offset offset' : Nat} :
    Pushing.Crlf (fun t u => '\r' ∉ t ∧ u = Text.crlf t) (action.pushing nested echoed known offset)
      (other.pushing nested' echoed' known' offset') := by
  induction h with
  | done hreturn => exact .pure ⟨hreturn, rfl⟩
  | fail error =>
    intro result hresult
    cases hresult
  | pushFooter hreturn _ ih =>
    intro result hresult
    obtain ⟨hspelled, hgives⟩ := ih result hresult
    exact ⟨.cons (respelled_crlf hreturn) hspelled, hgives⟩

namespace DirectiveTag

variable {before : Text} {tag : DirectiveTag}

theorem argument_crlf_eq_unclosed_iff : tag.crlf.argument = .unclosed ↔ tag.argument = .unclosed := by
  unfold crlf
  cases tag.argument <;> simp [DirectiveArgument.crlf]

theorem argument_crlf_eq_absent_iff : tag.crlf.argument = .absent ↔ tag.argument = .absent := by
  unfold crlf
  cases tag.argument <;> simp [DirectiveArgument.crlf]

/-- What stands in the place of a tag is the same with the other line endings. -/
theorem inPlace_crlf (hunescaped : tag.crlf.unescaped = Text.crlf tag.unescaped) (hreturn : '\r' ∉ tag.unescaped)
    (start start' : Nat) : List.Forall₂ Piece.Crlf (tag.inPlace start none) (tag.crlf.inPlace start' none) := by
  unfold inPlace
  rw [hunescaped]
  exact .cons (.markup hreturn _ _) .nil

theorem lineFeed_not_mem_spacing (hunescaped : tag.crlf.unescaped = Text.crlf tag.unescaped)
    (habsent : tag.argument = .absent) : '\n' ∉ tag.spacing := by
  have hsame : tag.crlf.unescaped = tag.unescaped := by
    simp [unescaped, crlf, DirectiveArgument.crlf, habsent]
  have hfeed : '\n' ∉ tag.unescaped := crlf_eq_self_iff.1 (hunescaped.symm.trans hsame)
  intro hmem
  apply hfeed
  simp [unescaped, hmem]

theorem inPlace_output_crlf (hunescaped : tag.crlf.unescaped = Text.crlf tag.unescaped) (hreturn : '\r' ∉ tag.unescaped)
    {output : Text} (houtput : '\r' ∉ output) (start start' : Nat) :
    List.Forall₂ Piece.Crlf (tag.inPlace start (some output)) (tag.crlf.inPlace start' (some (Text.crlf output))) := by
  refine .cons ?_ .nil
  simp only [argument_crlf_eq_absent_iff]
  split
  case isTrue habsent =>
    have hspacing : Text.crlf tag.spacing = tag.crlf.spacing :=
      crlf_eq_self_iff.2 (lineFeed_not_mem_spacing hunescaped habsent)
    rw [← hspacing, ← crlf_append]
    refine .output (sameOutput_crlf ?_)
    intro hmem
    rcases List.mem_append.1 hmem with hmem | hmem
    · exact houtput hmem
    · exact hreturn (by simp [unescaped, hmem])
  case isFalse => exact .output (sameOutput_crlf houtput)

end DirectiveTag

namespace Registry

variable {registry : Registry} {nested nested' : Text → Pushing Text}
  {echoed echoed' : Text → Except TranspileError Text} {offset offset' : Nat}
  (hdirectives : ∀ name handler, registry.find? name = some handler → KeepsLineBreaks handler)

include hdirectives

theorem pushTag_crlf {tag : DirectiveTag} (hunescaped : tag.crlf.unescaped = crlf tag.unescaped)
    (hreturn : '\r' ∉ tag.unescaped) (start start' : Nat) :
    Pushing.Crlf (List.Forall₂ Piece.Crlf) (registry.pushTag nested echoed offset start tag)
      (registry.pushTag nested' echoed' offset' start' tag.crlf) := by
  have hsame : registry.handler? tag.crlf = registry.handler? tag := rfl
  unfold pushTag
  rw [hsame]
  cases hhandler : registry.handler? tag with
  | none => exact .pure (DirectiveTag.inPlace_crlf hunescaped hreturn start start')
  | some handler =>
    have hargument : ∀ text ∈ tag.argument.text?, '\r' ∉ text := by
      intro text htext hmem
      apply hreturn
      simp [DirectiveTag.unescaped, Option.mem_def.1 htext, hmem]
    have hcall := hdirectives _ _ (handler?_eq_some hhandler).2 _ hargument
    simp only [DirectiveTag.argument_crlf_eq_unclosed_iff]
    split
    case isTrue =>
      intro result hresult
      cases hresult
    case isFalse =>
      have htext : tag.crlf.argument.text? = tag.argument.text?.map crlf := tag.argument.text?_crlf
      rw [htext]
      apply hcall.pushing.bind
      rintro output output' ⟨houtput, rfl⟩
      exact .pure (DirectiveTag.inPlace_output_crlf hunescaped hreturn houtput start start')

theorem pushTags_crlf {parts parts' : List (Text × DirectiveTag)} {last : Text}
    (hparts : List.Forall₂ DirectiveTag.CrlfPart parts parts') (hlast : '\r' ∉ last) (start start' : Nat) :
    Pushing.Crlf (List.Forall₂ Piece.Crlf) (registry.pushTags nested echoed offset start parts last)
      (registry.pushTags nested' echoed' offset' start' parts' (crlf last)) := by
  induction hparts generalizing start start' with
  | nil => exact .pure (Piece.ofMarkup_crlf hlast start start')
  | @cons part part' parts parts' hpart _ ih =>
    obtain ⟨before, tag⟩ := part
    obtain ⟨before', tag'⟩ := part'
    obtain ⟨rfl, rfl, hunescaped, hreturn⟩ := hpart
    rw [List.mem_append, not_or] at hreturn
    apply (pushTag_crlf hdirectives hunescaped hreturn.2 _ _).bind
    intro here here' hhere
    apply (ih _ _).bind
    intro later later' hlater
    have hbefore := Piece.ofMarkup_crlf hreturn.1 start start'
    exact .pure (List.rel_append (List.rel_append hbefore hhere) hlater)

end Registry

namespace Text

variable {lines lines' : List Text} {document document' : Text}

theorem join_cons_cons (separator t u : Text) (ts : List Text) :
    join separator (t :: u :: ts) = t ++ separator ++ join separator (u :: ts) := rfl

theorem join_respelled {separator : Text} (hseparator : '\r' ∉ separator) (h : List.Forall₂ Respelled lines lines') :
    Respelled (join separator lines) (join separator lines') := by
  induction h with
  | nil => exact .nil
  | cons hline hlater ih =>
    cases hlater with
    | nil => exact hline
    | cons =>
      rw [join_cons_cons, join_cons_cons]
      exact (hline.append (.refl hseparator)).append ih

/-- A document that begins with no line feed keeps all of it before a footer. -/
theorem withFooter_respelled (hdocument : SameOutput document document')
    (hlines : List.Forall₂ Respelled lines lines') :
    Respelled ((if lines = [] then [] else document.takeWhile (· = '\n')) ++ Transpiler.withFooter document lines)
      (Transpiler.withFooter document' lines') := by
  have hkept : document'.dropWhile (· = '\n') = document' := by
    have hhead := hdocument.head?_ne
    cases document' with
    | nil => rfl
    | cons c document' => exact List.dropWhile_cons_of_neg (by simpa using hhead)
  unfold Transpiler.withFooter
  cases hlines with
  | nil => exact hdocument.respelled
  | cons hline hlater =>
    rw [if_neg (List.cons_ne_nil _ _), if_neg (List.cons_ne_nil _ _), if_neg (List.cons_ne_nil _ _), hkept,
      ← List.append_assoc, ← List.append_assoc, List.takeWhile_append_dropWhile]
    have hfooter := List.rel_reverse (.cons hline hlater)
    exact (hdocument.respelled.append (.refl (by decide))).append (join_respelled (by decide) hfooter)

end Text

namespace Transpiler

variable {transpiler : Transpiler}

/-- No marker has a part of a line break, there are no hooks, and with the line breaks of its argument written
    in the other way each directive does the same in that way. -/
structure KeepsLineBreaks (transpiler : Transpiler) : Prop where
  comments : transpiler.comments.Unbroken
  echoes : transpiler.echoes.Unbroken
  directives : ∀ name handler, transpiler.directives.find? name = some handler → Registry.KeepsLineBreaks handler
  hooks : transpiler.hooks = []

theorem standard_keepsLineBreaks : (standard .builtins).KeepsLineBreaks where
  comments := ⟨by decide, by decide, by decide⟩
  echoes := EchoPasses.standard_unbroken
  directives _ _ := Registry.builtins_keepsLineBreaks
  hooks := rfl

section

variable (h : transpiler.KeepsLineBreaks) {text : Text} {spans spans' : List Span}

include h

theorem pushScan_crlf {nested nested' : Text → Pushing Text} (hreturn : '\r' ∉ text) (offset offset' : Nat) :
    Pushing.Crlf (List.Forall₂ Piece.Crlf) (transpiler.pushScan nested offset text)
      (transpiler.pushScan nested' offset' (crlf text)) := by
  obtain ⟨hparts, hlast, hlastReturn⟩ := DirectiveTag.splitAfter_crlf none hreturn
  unfold pushScan DirectiveTag.split
  rw [hlast]
  exact Registry.pushTags_crlf h.directives hparts hlastReturn offset offset'

theorem pushMarkup_crlf (hreturn : '\r' ∉ text) (depth depth' offset offset' : Nat) :
    Pushing.Crlf SameOutput (transpiler.pushMarkup depth offset text)
      (transpiler.pushMarkup depth' offset' (crlf text)) := by
  have hstrip : Pushing.Crlf (fun kept kept' => '\r' ∉ kept ∧ kept' = crlf kept)
      (.ofOutcome (transpiler.comments.stripComments offset text))
      (.ofOutcome (transpiler.comments.stripComments offset' (crlf text))) := by
    intro kept hkept
    obtain ⟨hkept', hsubset⟩ := Markers.stripComments_crlf h.comments hkept offset'
    exact ⟨.nil, crlf kept, hkept', fun hmem => hreturn (hsubset hmem), rfl⟩
  unfold pushMarkup
  rw [h.hooks]
  apply hstrip.bind
  rintro kept kept' ⟨hkept, rfl⟩
  have hhooks : Pushing.Crlf (fun markup markup' => '\r' ∉ markup ∧ markup' = crlf markup)
      (pure kept : Pushing Text) (pure (crlf kept)) := .pure ⟨hkept, rfl⟩
  apply hhooks.bind
  rintro markup markup' ⟨hmarkup, rfl⟩
  apply (pushScan_crlf h hmarkup offset offset').bind
  intro pieces pieces' hpieces output houtput
  obtain ⟨output', houtput', hsame⟩ := EchoPasses.transpilePieces_crlf h.echoes hpieces houtput
  exact ⟨.nil, output', houtput', hsame⟩

theorem pushSpans_crlf (hspans : List.Forall₂ Span.Crlf spans spans') (depth depth' : Nat) :
    Pushing.Crlf SameOutput (transpiler.pushSpans depth spans)
      (transpiler.pushSpans depth' spans') := by
  induction hspans with
  | nil => exact .pure .nil
  | @cons span span' spans spans' hspan _ ih =>
    have hlater : ∀ here here', SameOutput here here' →
        Pushing.Crlf SameOutput (transpiler.pushSpans depth spans >>= fun later => pure (here ++ later))
          (transpiler.pushSpans depth' spans' >>= fun later => pure (here' ++ later)) := by
      intro here here' hhere
      apply ih.bind
      intro later later' hsame
      exact .pure (hhere.append hsame)
    have hkind : span'.isMarkup = span.isMarkup := congrArg (· == SpanKind.markup) hspan.kind
    unfold pushSpans
    rw [hkind, hspan.text]
    cases span.isMarkup with
    | false => exact hlater _ _ (sameOutput_crlf hspan.carriageReturn)
    | true => exact (pushMarkup_crlf h hspan.carriageReturn depth depth' span.offset span'.offset).bind hlater

/-- With the other line endings a template gives what it gives, and before that the line feeds that its
    document loses at its start when it has a footer. -/
theorem render_crlf_of_keepsLineBreaks (hignores : transpiler.IgnoresFooter) {source output : Text}
    (hreturn : '\r' ∉ source) (hrender : transpiler.render source = .ok output) :
    ∃ body output', (transpiler.pushSpans (nestingLimit source) (Span.ofText source)).outcome = .ok body ∧
      transpiler.withoutPushes.render source = .ok body ∧ transpiler.render (crlf source) = .ok output' ∧
      Respelled ((if transpiler.pushedLines source = [] then [] else body.takeWhile (· = '\n')) ++ output) output' := by
  obtain ⟨hrun, hlines, hplain, hnone⟩ := leaves_spans hignores (nestingLimit source) (Span.ofText source) .start
  obtain ⟨hrun', hlines', -, -⟩ := leaves_spans hignores (nestingLimit (crlf source)) (Span.ofText (crlf source)) .start
  unfold render at hrender ⊢
  rw [renderWith_eq, hrun, hlines] at hrender
  rw [renderWith_eq, renderWith_eq, hrun', hlines', hplain, hnone]
  cases hbody : (transpiler.pushSpans (nestingLimit source) (Span.ofText source)).outcome with
  | error error =>
    rw [hbody] at hrender
    cases hrender
  | ok body =>
    rw [hbody] at hrender
    cases hrender
    obtain ⟨hspelled, body', hbody', hsame⟩ := pushSpans_crlf h (Span.ofTextAt_crlf hreturn 0 0) (nestingLimit source)
      (nestingLimit (crlf source)) body hbody
    refine ⟨body, _, rfl, rfl, ?_, withFooter_respelled hsame hspelled⟩
    exact congrArg (Except.map _) hbody'

end

/-- A template that can be rewritten can be rewritten with the other line endings, and gives the same, except
    that a template with a layout keeps the line breaks at the start of its document that it loses when they
    are line feeds. So the line endings make no difference exactly if the template names no layout, or its
    document does not begin with a line break. -/
theorem render_crlf {source output : Text} (hreturn : '\r' ∉ source)
    (h : (standard .builtins).render source = .ok output) :
    ∃ body output', (standard .builtins).withoutPushes.render source = .ok body ∧
      (standard .builtins).render (crlf source) = .ok output' ∧
      lf output' = (if (standard .builtins).layoutLines source = [] then [] else body.takeWhile (· = '\n')) ++ output ∧
      (lf output' = output ↔ (standard .builtins).layoutLines source = [] ∨ body.head? ≠ some '\n') := by
  have hignores : (standard .builtins).IgnoresFooter := ignoresFooter_of_builtins rfl rfl
  obtain ⟨body, output', hbody, hplain, hrender, hspelled⟩ :=
    render_crlf_of_keepsLineBreaks standard_keepsLineBreaks hignores hreturn h
  have hlines : (standard .builtins).pushedLines source = (standard .builtins).layoutLines source :=
    lines_pushSpans_builtins rfl rfl hbody
  rw [hlines] at hspelled
  have hlf := hspelled.lf_eq
  refine ⟨body, output', hplain, hrender, hlf, ?_⟩
  rw [hlf, List.append_left_eq_self]
  split
  case isTrue hnone => simp [hnone]
  case isFalse hsome =>
    cases body with
    | nil => simp
    | cons c body => simp [hsome, List.takeWhile_cons]

/-- A layout that is named behind a line break, an echo tag and code, each at the end of a line. -/
def lateLayout : Text := "\n\x7b\x7b $a \x7d\x7d\n<?php // b\n?>\n<@extends('l')".toList

theorem render_crlf_lateLayout :
    '\r' ∉ lateLayout ∧
      (standard .builtins).render lateLayout = .ok ("<?php echo e($a); ?>\n\n<?php // b\n?>\n\n".toList ++
        "<?php echo $__env->make('l', get_defined_vars())->render(); ?>".toList) ∧
      ∃ output', (standard .builtins).render (crlf lateLayout) = .ok output' ∧
        lf output' = "\n<?php echo e($a); ?>\n\n<?php // b\n?>\n\n".toList ++
          "<?php echo $__env->make('l', get_defined_vars())->render(); ?>".toList := by
  have hreturn : '\r' ∉ lateLayout := by decide +kernel
  have hrender : (standard .builtins).render lateLayout = .ok ("<?php echo e($a); ?>\n\n<?php // b\n?>\n\n".toList ++
      "<?php echo $__env->make('l', get_defined_vars())->render(); ?>".toList) := by decide +kernel
  have hbody : (standard .builtins).withoutPushes.render lateLayout =
      .ok "\n<?php echo e($a); ?>\n\n<?php // b\n?>\n".toList := by decide +kernel
  obtain ⟨body, output', hplain, hother, hlf, -⟩ := render_crlf hreturn hrender
  rw [hbody] at hplain
  cases hplain
  refine ⟨hreturn, hrender, output', hother, hlf.trans ?_⟩
  decide +kernel

/-- Behind a layout the line endings do make a difference: the line break after its tag is lost only when it
    is a line feed. -/
theorem render_crlf_ne :
    '\r' ∉ "<@extends('l')\nx".toList ∧
      (standard .builtins).render "<@extends('l')\nx".toList =
        .ok "x\n<?php echo $__env->make('l', get_defined_vars())->render(); ?>".toList ∧
      ¬ ∃ output', (standard .builtins).render (crlf "<@extends('l')\nx".toList) = .ok output' ∧
        lf output' = "x\n<?php echo $__env->make('l', get_defined_vars())->render(); ?>".toList := by
  have hother : (standard .builtins).render (crlf "<@extends('l')\nx".toList) =
      .ok "\r\nx\n<?php echo $__env->make('l', get_defined_vars())->render(); ?>".toList := by decide +kernel
  refine ⟨by decide, by decide +kernel, ?_⟩
  rintro ⟨output', hrender, hlf⟩
  rw [hother] at hrender
  cases hrender
  exact absurd hlf (by decide +kernel)

end Transpiler

end Template
