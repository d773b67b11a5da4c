import Template.Proofs.DirectiveParse
import Template.Proofs.Place
import Template.Proofs.Standard

/-! # Carrying directives out

The directive tags of a text are carried out from left to right, and each one sees the state
that the one before it leaves. What is called, what stops the run and where the pieces stand is
told from the tags that the text is read as.
-/

namespace Template

namespace DirectiveTag

/-- What stands in the place of a tag at a byte position: the output of its directive, with the
    spacing that no argument came after, and without an output the tag itself. -/
def inPlace (start : Nat) (tag : DirectiveTag) : (output : Option Text) → List Piece
  | none =>
    [.markup tag.unescaped (if tag.escaped then start + escapeMarker.utf8Size else start)]
  | some output => [.output (if tag.argument = .absent then output ++ tag.spacing else output)]

/-- The pieces of a text that stands at byte position `base` behind `front`: all that no output
    takes the place of is markup behind all the text before it. -/
def placed (base : Nat) : (front : Text) → List (Text × DirectiveTag) → (outputs : List (Option Text)) →
    (last : Text) → List Piece
  | front, (before, tag) :: parts, output :: outputs, last =>
    Piece.ofMarkup before (base + Text.byteLength front) ++
      inPlace (base + Text.byteLength (front ++ before)) tag output ++
      placed base (front ++ before ++ tag.source) parts outputs last
  | front, _, _, last => Piece.ofMarkup last (base + Text.byteLength front)

end DirectiveTag

namespace Registry

section

variable (registry : Registry) (answers : Answers)

/-- A tag is passed, from one state to another: it stays as it is when no directive is known for
    it, and otherwise the directive is called once, with the argument or without one. -/
inductive Passes (tag : DirectiveTag) (context : Context) : (output : Option Text) → Context → Prop where
  | kept (hkept : registry.handler? tag = none) : Passes tag context none context
  | called {handler : Handler} {output : Text} {after : Context}
      (hhandler : registry.handler? tag = some handler) (hclosed : tag.argument ≠ .unclosed)
      (hcall : (handler tag.argument.text?).run answers registry.names context = (.ok output, after)) :
      Passes tag context (some output) after

/-- Tags are passed one after another. -/
inductive PassesAll : List DirectiveTag → Context → (outputs : List (Option Text)) → Context → Prop where
  | nil {context : Context} : PassesAll [] context [] context
  | cons {tag : DirectiveTag} {tags : List DirectiveTag} {context between after : Context}
      {output : Option Text} {outputs : List (Option Text)}
      (hfirst : Passes registry answers tag context output between)
      (hmore : PassesAll tags between outputs after) :
      PassesAll (tag :: tags) context (output :: outputs) after

/-- A tag at a byte position stops the run: a directive is known for it, and its argument is never
    closed or the directive fails. -/
inductive Stops (start : Nat) (tag : DirectiveTag) (context : Context) : TranspileError → Context → Prop where
  | unclosed {handler : Handler} (hhandler : registry.handler? tag = some handler)
      (hunclosed : tag.argument = .unclosed) :
      Stops start tag context (.unterminatedTag .directive start) context
  | failed {handler : Handler} {error : TranspileError} {after : Context}
      (hhandler : registry.handler? tag = some handler) (hclosed : tag.argument ≠ .unclosed)
      (hcall : (handler tag.argument.text?).run answers registry.names context = (.error error, after)) :
      Stops start tag context error after

end

section

variable {registry : Registry} {answers : Answers} {start base : Nat} {tag : DirectiveTag}
  {context after : Context} {pieces : List Piece} {error : TranspileError} {front last : Text}
  {parts : List (Text × DirectiveTag)}

theorem ofMarkup_unescaped (tag : DirectiveTag) (start : Nat) :
    Piece.ofMarkup tag.unescaped start = [.markup tag.unescaped start] := by
  rw [Piece.ofMarkup, if_neg (by simp [DirectiveTag.unescaped, directiveIntroducer])]

theorem inPlace_of_not_escaped (h : tag.escaped = false) (start : Nat) :
    tag.inPlace start none = Piece.ofMarkup tag.source start := by
  rw [DirectiveTag.source_eq_unescaped h, ofMarkup_unescaped, DirectiveTag.inPlace, h, if_neg Bool.false_ne_true]

theorem carryOutTag_called {handler : Handler} (hhandler : registry.handler? tag = some handler)
    (hclosed : tag.argument ≠ .unclosed) :
    registry.carryOutTag answers start tag = (do
      let output ← (handler tag.argument.text?).run answers registry.names
      pure (tag.inPlace start (some output))) := by
  unfold carryOutTag
  unfold handler? at hhandler
  rw [hhandler]
  cases hargument : tag.argument with
  | unclosed => exact absurd hargument hclosed
  | given text => simp only [DirectiveTag.inPlace, hargument, reduceCtorEq, if_false]; rfl
  | absent => simp only [DirectiveTag.inPlace, hargument, if_true]; rfl

theorem carryOutTag_eq_ok_iff : registry.carryOutTag answers start tag context = (.ok pieces, after) ↔
    ∃ output, registry.Passes answers tag context output after ∧ pieces = tag.inPlace start output := by
  cases hhandler : registry.handler? tag with
  | none =>
    rw [carryOutTag_of_none hhandler, ofMarkup_unescaped]
    constructor
    · intro h
      cases h
      exact ⟨none, .kept hhandler, rfl⟩
    · rintro ⟨output, hpasses, rfl⟩
      cases hpasses with
      | kept => rfl
      | called hcalled => rw [hhandler] at hcalled; cases hcalled
  | some handler =>
    by_cases hargument : tag.argument = .unclosed
    · rw [carryOutTag_of_unclosed hhandler hargument]
      constructor
      · intro h
        cases h
      · rintro ⟨output, hpasses, -⟩
        cases hpasses with
        | kept hkept => rw [hhandler] at hkept; cases hkept
        | called _ hclosed => exact absurd hargument hclosed
    · rw [carryOutTag_called hhandler hargument]
      constructor
      · intro h
        rw [Run.bind_apply] at h
        split at h
        · cases h
        case _ output between hcall =>
          cases h
          exact ⟨some output, .called hhandler hargument hcall, rfl⟩
      · rintro ⟨output, hpasses, rfl⟩
        cases hpasses with
        | kept hkept => rw [hhandler] at hkept; cases hkept
        | called hcalled _ hcall =>
          rw [hhandler] at hcalled
          cases hcalled
          rw [Run.bind_apply_ok hcall]
          rfl

theorem carryOutTag_eq_error_iff :
    registry.carryOutTag answers start tag context = (.error error, after) ↔
      registry.Stops answers start tag context error after := by
  cases hhandler : registry.handler? tag with
  | none =>
    rw [carryOutTag_of_none hhandler]
    constructor
    · intro h
      cases h
    · intro h
      cases h with
      | unclosed hcalled | failed hcalled => rw [hhandler] at hcalled; cases hcalled
  | some handler =>
    by_cases hargument : tag.argument = .unclosed
    · rw [carryOutTag_of_unclosed hhandler hargument]
      constructor
      · intro h
        cases h
        exact .unclosed hhandler hargument
      · intro h
        cases h with
        | unclosed => rfl
        | failed _ hclosed => exact absurd hargument hclosed
    · rw [carryOutTag_called hhandler hargument]
      constructor
      · intro h
        rcases Run.bind_eq_error h with hcall | ⟨_, _, _, hdone⟩
        · exact .failed hhandler hargument hcall
        · cases hdone
      · intro h
        cases h with
        | unclosed _ hunclosed => exact absurd hunclosed hargument
        | failed hcalled _ hcall =>
          rw [hhandler] at hcalled
          cases hcalled
          exact Run.bind_apply_error hcall

theorem carryOut_cons (before : Text) :
    registry.carryOut answers (base + Text.byteLength front) ((before, tag) :: parts) last = (do
      let here ← registry.carryOutTag answers (base + Text.byteLength (front ++ before)) tag
      let later ← registry.carryOut answers (base + Text.byteLength (front ++ before ++ tag.source)) parts last
      pure (Piece.ofMarkup before (base + Text.byteLength front) ++ here ++ later)) := by
  simp only [carryOut, Text.byteLength_append, Nat.add_assoc]

theorem carryOut_eq_ok_iff :
    registry.carryOut answers (base + Text.byteLength front) parts last context = (.ok pieces, after) ↔
      ∃ outputs, registry.PassesAll answers (parts.map Prod.snd) context outputs after ∧
        pieces = DirectiveTag.placed base front parts outputs last := by
  induction parts generalizing front context pieces with
  | nil =>
    constructor
    · intro h
      cases h
      exact ⟨[], .nil, rfl⟩
    · rintro ⟨outputs, hpasses, rfl⟩
      cases hpasses
      rfl
  | cons part parts ih =>
    obtain ⟨before, tag⟩ := part
    rw [carryOut_cons, Run.bind_apply]
    constructor
    · intro h
      split at h
      · cases h
      case _ here between hhere =>
        rw [Run.bind_apply] at h
        split at h
        · cases h
        case _ later _ hlater =>
          cases h
          obtain ⟨output, hfirst, rfl⟩ := carryOutTag_eq_ok_iff.1 hhere
          obtain ⟨outputs, hmore, rfl⟩ := ih.1 hlater
          exact ⟨output :: outputs, .cons hfirst hmore, rfl⟩
    · rintro ⟨outputs, hpasses, rfl⟩
      cases hpasses with
      | cons hfirst hmore =>
        rw [carryOutTag_eq_ok_iff.2 ⟨_, hfirst, rfl⟩]
        dsimp only
        rw [Run.bind_apply_ok (ih.2 ⟨_, hmore, rfl⟩)]
        rfl

theorem carryOut_eq_error_iff :
    registry.carryOut answers (base + Text.byteLength front) parts last context = (.error error, after) ↔
      ∃ done before tag more outputs between, parts = done ++ (before, tag) :: more ∧
        registry.PassesAll answers (done.map Prod.snd) context outputs between ∧
        registry.Stops answers (base + Text.byteLength (front ++ DirectiveTag.unsplit done before)) tag
          between error after := by
  induction parts generalizing front context with
  | nil =>
    constructor
    · intro h
      cases h
    · rintro ⟨done, before, tag, more, outputs, between, hparts, -⟩
      simp at hparts
  | cons part parts ih =>
    obtain ⟨before, tag⟩ := part
    rw [carryOut_cons]
    constructor
    · intro h
      rcases Run.bind_eq_error h with hhere | ⟨here, between, hhere, h⟩
      · exact ⟨[], before, tag, parts, [], context, rfl, .nil, carryOutTag_eq_error_iff.1 hhere⟩
      · rcases Run.bind_eq_error h with hlater | ⟨_, _, _, hdone⟩
        · obtain ⟨output, hfirst, -⟩ := carryOutTag_eq_ok_iff.1 hhere
          obtain ⟨done, before', tag', more, outputs, between', rfl, hmore, hstops⟩ := ih.1 hlater
          refine ⟨(before, tag) :: done, before', tag', more, output :: outputs, between', rfl,
            .cons hfirst hmore, ?_⟩
          simpa only [DirectiveTag.unsplit_cons, List.append_assoc] using hstops
        · cases hdone
    · rintro ⟨done, before', tag', more, outputs, between, hparts, hpasses, hstops⟩
      cases done with
      | nil =>
        cases hparts
        cases hpasses
        exact Run.bind_apply_error (carryOutTag_eq_error_iff.2 hstops)
      | cons part done =>
        cases hparts
        cases hpasses with
        | cons hfirst hmore =>
          rw [Run.bind_apply_ok (carryOutTag_eq_ok_iff.2 ⟨_, hfirst, rfl⟩)]
          apply Run.bind_apply_error
          refine ih.2 ⟨done, before', tag', more, _, between, rfl, hmore, ?_⟩
          simpa only [DirectiveTag.unsplit_cons, List.append_assoc] using hstops

theorem passesAll_of_kept {tags : List DirectiveTag} (h : ∀ tag ∈ tags, registry.handler? tag = none) :
    registry.PassesAll answers tags context (tags.map fun _ => none) context := by
  induction tags with
  | nil => exact .nil
  | cons tag tags ih =>
    rw [List.forall_mem_cons] at h
    exact .cons (.kept h.1) (ih h.2)

theorem carryOut_of_kept (offset : Nat) (last : Text)
    (h : ∀ part ∈ parts, registry.handler? part.2 = none) :
    registry.carryOut answers offset parts last context =
      (.ok (DirectiveTag.placed offset [] parts (parts.map fun _ => none) last), context) := by
  have hpasses : registry.PassesAll answers (parts.map Prod.snd) context (parts.map fun _ => none) context := by
    rw [← Function.comp_def (fun _ => none) Prod.snd, ← List.map_map]
    exact passesAll_of_kept (List.forall_mem_map.2 h)
  exact (@carryOut_eq_ok_iff _ _ _ _ _ _ [] _ _).2 ⟨_, hpasses, rfl⟩

end

end Registry

namespace Transpiler

/-- A text has one reading as directive tags with text around them. The scan carries these tags
    out in order: it gives the text around them in its place and what stands for each tag, or it
    ends where the first of them stops it. -/
theorem scan_faithful (transpiler : Transpiler) (answers : Answers) (text : Text) (context : Context) :
    ∃ parts last, DirectiveTag.unsplit parts last = text ∧
      (∀ parts' last', DirectiveTag.Parses none text parts' last' ↔ parts' = parts ∧ last' = last) ∧
      (∀ pieces after, transpiler.scan answers text context = (.ok pieces, after) ↔
        ∃ outputs, transpiler.directives.PassesAll answers (parts.map Prod.snd) context outputs after ∧
          pieces = DirectiveTag.placed context.offset [] parts outputs last) ∧
      ∀ error after, transpiler.scan answers text context = (.error error, after) ↔
        ∃ done before tag more outputs between, parts = done ++ (before, tag) :: more ∧
          transpiler.directives.PassesAll answers (done.map Prod.snd) context outputs between ∧
          transpiler.directives.Stops answers
            (context.offset + Text.byteLength (DirectiveTag.unsplit done before)) tag between error after := by
  refine ⟨(DirectiveTag.split text).1, (DirectiveTag.split text).2, DirectiveTag.unsplit_splitAfter none text,
    fun parts' last' => ?_, fun pieces after => ?_, fun error after => ?_⟩
  · rw [DirectiveTag.parses_iff, ← Prod.mk.injEq]
    exact eq_comm
  · exact @Registry.carryOut_eq_ok_iff _ _ _ _ _ _ [] _ _
  · exact @Registry.carryOut_eq_error_iff _ _ _ _ _ _ [] _ _

/-- The directive `show` alone, which puts its argument between angle quotes. -/
def showing : Transpiler :=
  standard (.insert .empty "show".toList fun argument => .done ('«' :: argument.getD ['-'] ++ ['»']))

-- The directive is called with its argument, parentheses and all, and without one; another stays as it is.
example : (showing.scan (showing.answersAt 0) "a <@show($x (y)) <@other <@show c".toList .start).1 =
    .ok [.markup "a ".toList 0, .output "«($x (y))»".toList, .markup [' '] 16, .markup "<@other ".toList 17,
      .output "«-» ".toList, .markup ['c'] 32] := by
  decide +kernel

-- The second tag stops the run, and what the first one gave is lost.
example : (showing.scan (showing.answersAt 0) "a <@show($x) <@show(($y)".toList .start).1 =
    .error (.unterminatedTag .directive 13) := by
  decide +kernel

end Transpiler

end Template
