import Template.Proofs.ErrorOffset
import Template.Proofs.Pushing

/-! # The footer is a tail

What a template gives with a footer is what it gives without one, and the pushed lines behind it. The
built-in directives are of this kind: one of them pushes the code of a layout, and the others push
nothing.
-/

namespace Template

namespace DirectiveTag

/-- The tag names the layout of its template. -/
def callsLayout (tag : DirectiveTag) : Bool := !tag.escaped && tag.name = "extends".toList

theorem callsLayout_of_name_ne {tag : DirectiveTag} (h : tag.name ≠ "extends".toList) : tag.callsLayout = false := by
  unfold callsLayout
  rw [decide_eq_false h, Bool.and_false]

/-- The code that renders the layout a tag names. -/
def layoutLine (tag : DirectiveTag) : Text :=
  "<?php echo $__env->make(".toList ++ (tag.argument.text?.getD []).stripParentheses ++
    ", get_defined_vars())->render(); ?>".toList

end DirectiveTag

namespace Registry

section

variable {nested : Text → Pushing Text} {echoed : Text → Except TranspileError Text} {known : List Text}
  {offset : Nat}

/-- A required argument is given, or the directive fails. -/
theorem required_cases (directive : Text) (argument : Option Text) :
    (∃ text, argument = some text ∧ required directive argument = .done text) ∨
      ∃ error, required directive argument = .fail error := by
  unfold required
  cases hgiven : argument.filter fun text => !text.stripParentheses.isAllBlank with
  | none => exact .inr ⟨_, rfl⟩
  | some text => exact .inl ⟨text, (Option.filter_eq_some_iff.1 hgiven).1, rfl⟩

theorem surround_cases (directive before after : String) (argument : Option Text) :
    (∃ code, surround directive before after argument = .done code) ∨
      ∃ error, surround directive before after argument = .fail error := by
  unfold surround
  rcases required_cases directive.toList argument with ⟨text, -, hgiven⟩ | ⟨error, hfails⟩
  · rw [hgiven]
    exact .inl ⟨_, rfl⟩
  · rw [hfails]
    exact .inr ⟨error, rfl⟩

/-- A built-in directive leaves the footer alone, or it is the one for the layout. -/
theorem builtins_cases {name : Text} {handler : Handler} (hfind : builtins.find? name = some handler)
    (argument : Option Text) :
    name = "extends".toList ∧ handler = extendLayout ∨
      name ≠ "extends".toList ∧
        ((∃ code, handler argument = .done code) ∨ ∃ error, handler argument = .fail error) := by
  rcases find?_insertAll hfind with hempty | hmem
  · cases hempty
  · simp only [List.mem_cons, List.not_mem_nil, or_false, Prod.mk.injEq] at hmem
    rcases hmem with ⟨rfl, rfl⟩ | ⟨rfl, rfl⟩ | ⟨rfl, rfl⟩ | ⟨rfl, rfl⟩ | ⟨rfl, rfl⟩ | ⟨rfl, rfl⟩ | ⟨rfl, rfl⟩ |
      ⟨rfl, rfl⟩ | ⟨rfl, rfl⟩ | ⟨rfl, rfl⟩ | ⟨rfl, rfl⟩
    case inr.inr.inr.inr.inr.inr.inr.inr.inr.inr => exact .inl ⟨rfl, rfl⟩
    all_goals
      refine .inr ⟨by decide, ?_⟩
      first
        | exact surround_cases _ _ _ argument
        | exact .inl ⟨_, rfl⟩
        | cases argument <;> exact .inl ⟨_, rfl⟩

theorem extendLayout_ignoresFooter (argument : Option Text) : (extendLayout argument).IgnoresFooter := by
  unfold extendLayout
  rcases required_cases "extends".toList argument with ⟨text, -, hgiven⟩ | ⟨error, hfails⟩
  · rw [hgiven]
    trivial
  · rw [hfails]
    trivial

theorem builtins_ignoresFooter {name : Text} {handler : Handler} (hfind : builtins.find? name = some handler)
    (argument : Option Text) : (handler argument).IgnoresFooter := by
  rcases builtins_cases hfind argument with ⟨-, rfl⟩ | ⟨-, ⟨code, hdone⟩ | ⟨error, hfails⟩⟩
  · exact extendLayout_ignoresFooter argument
  · rw [hdone]
    trivial
  · rw [hfails]
    trivial

theorem callsLayout_of_handler?_builtins {tag : DirectiveTag} (h : builtins.handler? tag = none) :
    tag.callsLayout = false := by
  have hlayout : builtins.find? "extends".toList = some extendLayout := rfl
  unfold handler? at h
  cases hescaped : tag.escaped with
  | true => rw [DirectiveTag.callsLayout, hescaped, Bool.not_true, Bool.false_and]
  | false =>
    apply DirectiveTag.callsLayout_of_name_ne
    intro hname
    rw [hescaped, if_neg Bool.false_ne_true, hname, hlayout] at h
    cases h

/-- The layout is pushed if it is given. -/
theorem lines_extendLayout {tag : DirectiveTag} {output : Text}
    (h : ((extendLayout tag.argument.text?).pushing nested echoed known offset).outcome = .ok output) :
    ((extendLayout tag.argument.text?).pushing nested echoed known offset).lines = [tag.layoutLine] := by
  unfold extendLayout at h ⊢
  unfold DirectiveTag.layoutLine
  rcases required_cases "extends".toList tag.argument.text? with ⟨text, hgiven, hdone⟩ | ⟨error, hfails⟩
  · rw [hdone, hgiven]
    rfl
  · rw [hfails] at h
    cases h

/-- A tag that is carried out pushes the code of its layout, if it names one. -/
theorem lines_pushTag_builtins {start : Nat} {tag : DirectiveTag} {pieces : List Piece}
    (h : (builtins.pushTag nested echoed offset start tag).outcome = .ok pieces) :
    (builtins.pushTag nested echoed offset start tag).lines =
      if tag.callsLayout then [tag.layoutLine] else [] := by
  unfold pushTag at h ⊢
  cases hhandler : builtins.handler? tag with
  | none =>
    rw [callsLayout_of_handler?_builtins hhandler]
    rfl
  | some handler =>
    obtain ⟨hescaped, hfind⟩ := handler?_eq_some hhandler
    simp only [hhandler] at h ⊢
    split at h
    case isTrue => cases h
    case isFalse hclosed =>
      rw [if_neg hclosed]
      obtain ⟨output, hcall, -, hlines⟩ := Pushing.exists_of_bind_eq_ok h
      change _ = _ ++ []  at hlines
      rw [hlines, List.append_nil]
      rcases builtins_cases hfind tag.argument.text? with ⟨hname, rfl⟩ | ⟨hname, ⟨code, hdone⟩ | ⟨error, hfails⟩⟩
      · have hcalls : tag.callsLayout = true := by simp [DirectiveTag.callsLayout, hescaped, hname]
        rw [lines_extendLayout hcall, if_pos hcalls]
      · rw [hdone, DirectiveTag.callsLayout_of_name_ne hname]
        rfl
      · rw [hfails] at hcall
        cases hcall

/-- The tags of a text push the code of the layouts that they name, from left to right. -/
theorem lines_pushTags_builtins {start : Nat} {parts : List (Text × DirectiveTag)} {last : Text}
    {pieces : List Piece} (h : (builtins.pushTags nested echoed offset start parts last).outcome = .ok pieces) :
    (builtins.pushTags nested echoed offset start parts last).lines =
      ((parts.map Prod.snd).filter DirectiveTag.callsLayout).map DirectiveTag.layoutLine := by
  induction parts generalizing start pieces with
  | nil => rfl
  | cons part parts ih =>
    obtain ⟨before, tag⟩ := part
    obtain ⟨here, hhere, hrest, hlines⟩ := Pushing.exists_of_bind_eq_ok h
    obtain ⟨later, hlater, -, hlines'⟩ := Pushing.exists_of_bind_eq_ok hrest
    change (_ >>= _ : Pushing _).lines = _
    rw [hlines, hlines', lines_pushTag_builtins hhere, ih hlater, List.map_cons, List.filter_cons]
    change _ ++ (_ ++ []) = _
    split <;> simp

end

end Registry

namespace Transpiler

variable {transpiler : Transpiler}

/-- The directive tags of a span, from left to right. -/
def tagsOf (transpiler : Transpiler) (span : Span) : List DirectiveTag :=
  if span.isMarkup then
    match transpiler.comments.stripComments span.offset span.text with
    | .ok kept => (DirectiveTag.split kept).1.map Prod.snd
    | .error _ => []
  else []

/-- The code of the layouts that a template names, in its order. -/
def layoutLines (transpiler : Transpiler) (source : Text) : List Text :=
  (((Span.ofText source).flatMap transpiler.tagsOf).filter DirectiveTag.callsLayout).map DirectiveTag.layoutLine

section

variable (hdirectives : transpiler.directives = .builtins) (hhooks : transpiler.hooks = [])

include hdirectives hhooks

theorem ignoresFooter_of_builtins : transpiler.IgnoresFooter where
  directives name handler hfind := by
    rw [hdirectives] at hfind
    exact Registry.builtins_ignoresFooter hfind
  hooks := by simp [hhooks]

theorem lines_pushMarkup_builtins {depth : Nat} {span : Span} {document : Text} (hmarkup : span.isMarkup = true)
    (h : (transpiler.pushMarkup depth span.offset span.text).outcome = .ok document) :
    (transpiler.pushMarkup depth span.offset span.text).lines =
      ((transpiler.tagsOf span).filter DirectiveTag.callsLayout).map DirectiveTag.layoutLine := by
  unfold pushMarkup at h ⊢
  obtain ⟨kept, hkept, hrest, hlines⟩ := Pushing.exists_of_bind_eq_ok h
  obtain ⟨markup, hhook, hscanned, hlines'⟩ := Pushing.exists_of_bind_eq_ok hrest
  obtain ⟨pieces, hscan, -, hlines''⟩ := Pushing.exists_of_bind_eq_ok hscanned
  rw [hhooks] at hhook hlines'
  cases hhook
  unfold pushScan at hscan
  rw [hdirectives] at hscan
  rw [hlines, hhooks, hlines', hlines'']
  have hstrip : transpiler.comments.stripComments span.offset span.text = .ok kept := hkept
  unfold pushScan tagsOf
  rw [hdirectives, Registry.lines_pushTags_builtins hscan, if_pos hmarkup, hstrip]
  exact List.append_nil _

theorem lines_pushSpans_builtins {depth : Nat} {spans : List Span} {document : Text}
    (h : (transpiler.pushSpans depth spans).outcome = .ok document) :
    (transpiler.pushSpans depth spans).lines =
      ((spans.flatMap transpiler.tagsOf).filter DirectiveTag.callsLayout).map DirectiveTag.layoutLine := by
  induction spans generalizing document with
  | nil => rfl
  | cons span spans ih =>
    have later : ∀ here, (transpiler.pushSpans depth spans >>= fun later => pure (here ++ later)).outcome = .ok document →
        (transpiler.pushSpans depth spans >>= fun later => pure (here ++ later)).lines =
          ((spans.flatMap transpiler.tagsOf).filter DirectiveTag.callsLayout).map DirectiveTag.layoutLine := by
      intro here h
      obtain ⟨later, hlater, -, hlines⟩ := Pushing.exists_of_bind_eq_ok h
      exact hlines.trans ((List.append_nil _).trans (ih hlater))
    unfold pushSpans at h ⊢
    rw [List.flatMap_cons, List.filter_append, List.map_append]
    cases hkind : span.isMarkup with
    | false =>
      have hnone : transpiler.tagsOf span = [] := by simp [tagsOf, hkind]
      rw [hkind] at h
      rw [hnone]
      exact later span.text h
    | true =>
      rw [hkind] at h
      obtain ⟨here, hhere, hrest, hlines⟩ := Pushing.exists_of_bind_eq_ok h
      rw [← lines_pushMarkup_builtins hdirectives hhooks hkind hhere, ← later here hrest]
      exact hlines

end

/-- Directives and hooks that ignore the footer only add a tail to what they give without their pushes: the
    lines they push, in reverse, behind the document. Of the built-in directives each use of `extends`
    pushes one line. -/
theorem render_eq_tail (transpiler : Transpiler) (source : Text) :
    (transpiler.IgnoresFooter →
      (∀ error, transpiler.render source = .error error ↔ transpiler.withoutPushes.render source = .error error) ∧
      (transpiler.renderSpans (transpiler.answersAt (nestingLimit source)) (Span.ofText source) .start).2.footer =
        transpiler.pushedLines source ∧
      ∀ body, transpiler.withoutPushes.render source = .ok body →
        (transpiler.pushedLines source = [] → transpiler.render source = .ok body) ∧
        (transpiler.pushedLines source ≠ [] → transpiler.render source =
          .ok (body.dropWhile (· = '\n') ++ ['\n'] ++ Text.join ['\n'] (transpiler.pushedLines source).reverse))) ∧
    (transpiler.directives = .builtins → transpiler.hooks = [] →
      transpiler.IgnoresFooter ∧ ∀ body, transpiler.withoutPushes.render source = .ok body →
        transpiler.pushedLines source = transpiler.layoutLines source) := by
  have htail : transpiler.IgnoresFooter → _ := fun h =>
    leaves_spans h (nestingLimit source) (Span.ofText source) .start
  constructor
  · intro h
    obtain ⟨hrun, hfooter, hplain, hnone⟩ := htail h
    unfold render
    rw [renderWith_eq, renderWith_eq, hrun, hplain, hfooter, hnone]
    cases hdocument : (transpiler.pushSpans (nestingLimit source) (Span.ofText source)).outcome with
    | error error => exact ⟨fun _ => .rfl, rfl, fun body hbody => nomatch hbody⟩
    | ok document =>
      refine ⟨fun _ => ⟨(nomatch ·), (nomatch ·)⟩, rfl, ?_⟩
      intro body hbody
      obtain rfl : document = body := Except.ok.inj hbody
      change (_ → Except.ok (withFooter document (transpiler.pushedLines source)) = _) ∧
        (_ → Except.ok (withFooter document (transpiler.pushedLines source)) = _)
      unfold withFooter
      exact ⟨fun hlines => by rw [if_pos hlines], fun hlines => by rw [if_neg hlines]⟩
  · intro hdirectives hhooks
    have hignores := ignoresFooter_of_builtins hdirectives hhooks
    refine ⟨hignores, fun body hbody => ?_⟩
    obtain ⟨-, -, hplain, -⟩ := htail hignores
    unfold render at hbody
    rw [renderWith_eq, hplain] at hbody
    cases hdocument : (transpiler.pushSpans (nestingLimit source) (Span.ofText source)).outcome with
    | error error =>
      rw [hdocument] at hbody
      cases hbody
    | ok document => exact lines_pushSpans_builtins hdirectives hhooks hdocument

/-- A directive that gives its argument with the directives carried out, and notes when it begins and ends. -/
def note : Handler := fun argument => do
  let text := (argument.getD []).stripParentheses
  .addFooter ("in ".toList ++ text)
  let inner ← .transpileStatements text
  .addFooter ("out ".toList ++ text)
  pure inner

/-- The transpiler with that directive, and a hook that notes the place of its markup. -/
def noting : Transpiler :=
  ((standard .builtins).addDirective "note".toList note).addHook fun text => do
    .addFooter ("at ".toList ++ Text.ofNat (← .offset))
    pure text

theorem noting_ignoresFooter : noting.IgnoresFooter where
  directives name handler hfind argument := by
    change ((Registry.builtins.insert "note".toList note).find? name) = some handler at hfind
    rw [Registry.find?_insert] at hfind
    split at hfind
    · cases hfind
      intro answer
      cases answer <;> trivial
    · exact Registry.builtins_ignoresFooter hfind argument
  hooks hook hhook text := by
    rw [List.mem_singleton.1 hhook]
    exact fun offset => trivial

/-- A directive in the argument of another, between two pieces of code, and a layout. -/
def notedTemplate : Text :=
  "\na <@note(b <@note(c)) <?php 1 ?>d <@extends('l') <@note(e)".toList

theorem render_eq_tail_noted :
    noting.IgnoresFooter ∧
      noting.pushedLines notedTemplate = ["at 0".toList, "in b <@note(c)".toList, "in c".toList, "out c".toList,
        "out b <@note(c)".toList, "at 33".toList,
        "<?php echo $__env->make('l', get_defined_vars())->render(); ?>".toList, "in e".toList, "out e".toList] ∧
      noting.withoutPushes.render notedTemplate = .ok "\na b c <?php 1 ?>d  e".toList ∧
      noting.render notedTemplate = .ok ("a b c <?php 1 ?>d  e\nout e\nin e\n".toList ++
        "<?php echo $__env->make('l', get_defined_vars())->render(); ?>\n".toList ++
        "at 33\nout b <@note(c)\nout c\nin c\nin b <@note(c)\nat 0".toList) ∧
      (standard .builtins).pushedLines "<@extends('m') <@extends('l')".toList =
        ["<?php echo $__env->make('m', get_defined_vars())->render(); ?>".toList,
         "<?php echo $__env->make('l', get_defined_vars())->render(); ?>".toList] := by
  have hlines : noting.pushedLines notedTemplate = ["at 0".toList, "in b <@note(c)".toList, "in c".toList,
      "out c".toList, "out b <@note(c)".toList, "at 33".toList,
      "<?php echo $__env->make('l', get_defined_vars())->render(); ?>".toList, "in e".toList,
      "out e".toList] := by decide +kernel
  have hbody : noting.withoutPushes.render notedTemplate = .ok "\na b c <?php 1 ?>d  e".toList := by decide +kernel
  refine ⟨noting_ignoresFooter, hlines, hbody, ?_, ?_⟩
  · obtain ⟨-, -, htail⟩ := (render_eq_tail noting notedTemplate).1 noting_ignoresFooter
    have hpushes : noting.pushedLines notedTemplate ≠ [] := by
      rw [hlines]
      exact List.cons_ne_nil _ _
    rw [(htail _ hbody).2 hpushes, hlines]
    decide +kernel
  · have hbody : (standard .builtins).withoutPushes.render "<@extends('m') <@extends('l')".toList =
        .ok " ".toList := by decide +kernel
    rw [((render_eq_tail (standard .builtins) _).2 rfl rfl).2 _ hbody]
    decide +kernel

end Transpiler

end Template
