import Mathlib.Data.List.Forall2
import Template.Proofs.Comment
import Template.Proofs.DirectiveScan
import Template.Proofs.Standard

/-! # Emitted code

What a directive gives is final: the passes over echo tags and the check for unterminated tags look
at markup and at nothing else. So two runs whose directives do the same, but give other texts, make
the same of all that is markup, and each text stands in its place as it was given.

Hooks come before directives. One that has directives carried out itself leaves what they give as
markup, so two such runs need not reach the passes with the same markup.
-/

namespace Template

namespace Piece

/-- Two pieces are the same markup at the same place, or they are both output. -/
inductive SameMarkup : Piece → Piece → Prop where
  | markup (text : Text) (offset : Nat) : SameMarkup (.markup text offset) (.markup text offset)
  | output (text other : Text) : SameMarkup (.output text) (.output other)

variable {pieces others : List Piece}

theorem SameMarkup.refl (p : Piece) : SameMarkup p p := by
  cases p with
  | markup text offset => exact .markup text offset
  | output text => exact .output text text

theorem forall₂_sameMarkup_refl (pieces : List Piece) : List.Forall₂ SameMarkup pieces pieces :=
  List.forall₂_same.2 fun p _ => SameMarkup.refl p

theorem markups_eq_of_sameMarkup (h : List.Forall₂ SameMarkup pieces others) : markups pieces = markups others := by
  induction h with
  | nil => rfl
  | cons hp _ ih =>
    cases hp with
    | markup text offset => exact congrArg ((text, offset) :: ·) ih
    | output => exact ih

end Piece

namespace EchoPasses

variable {passes : EchoPasses} {family : EchoFamily} {p q : Piece} {pieces others : List Piece}

/-- What the passes show for a piece. -/
def shown (passes : EchoPasses) : Piece → Text
  | .markup text offset => Piece.joined (passes.rewrite [.markup text offset])
  | .output text => text

theorem rewrite_append (pieces others : List Piece) :
    passes.rewrite (pieces ++ others) = passes.rewrite pieces ++ passes.rewrite others := by
  simp [rewrite]

/-- The passes show the pieces one by one. -/
theorem joined_rewrite (pieces : List Piece) : Piece.joined (passes.rewrite pieces) = pieces.flatMap passes.shown := by
  induction pieces with
  | nil => rfl
  | cons p pieces ih =>
    rw [← List.singleton_append, rewrite_append, Piece.joined_append, ih, List.flatMap_append]
    congr 1
    cases p with
    | markup text offset => simp [shown]
    | output text => simp [shown, rewrite, Piece.text]

/-- What a pass makes of a piece depends on the markup in it. -/
theorem rewritePiece_sameMarkup (h : Piece.SameMarkup p q) :
    List.Forall₂ Piece.SameMarkup (passes.rewritePiece family p) (passes.rewritePiece family q) := by
  cases h with
  | markup text offset => exact Piece.forall₂_sameMarkup_refl _
  | output text other => exact .cons (.output text other) .nil

theorem pass_sameMarkup (h : List.Forall₂ Piece.SameMarkup pieces others) :
    List.Forall₂ Piece.SameMarkup (passes.pass family pieces) (passes.pass family others) := by
  induction h with
  | nil => exact .nil
  | cons hp _ ih => exact List.rel_append (rewritePiece_sameMarkup hp) ih

theorem rewrite_sameMarkup (h : List.Forall₂ Piece.SameMarkup pieces others) :
    List.Forall₂ Piece.SameMarkup (passes.rewrite pieces) (passes.rewrite others) :=
  pass_sameMarkup (pass_sameMarkup (pass_sameMarkup h))

/-- Pieces with the same markup fail alike, or each list is shown piece by piece. -/
theorem transpilePieces_sameMarkup (h : List.Forall₂ Piece.SameMarkup pieces others) :
    (∃ error, passes.transpilePieces pieces = .error error ∧ passes.transpilePieces others = .error error) ∨
      (passes.transpilePieces pieces = .ok (pieces.flatMap passes.shown) ∧
        passes.transpilePieces others = .ok (others.flatMap passes.shown)) := by
  rw [transpilePieces_eq, transpilePieces_eq, ← Piece.markups_eq_of_sameMarkup (rewrite_sameMarkup h)]
  cases passes.checkTerminated (Piece.markups (passes.rewrite pieces)) with
  | error error => exact .inl ⟨error, rfl, rfl⟩
  | ok => exact .inr ⟨by rw [joined_rewrite], by rw [joined_rewrite]⟩

end EchoPasses

namespace Run

/-- Two runs end alike: they fail with the same error, or they give values that belong together, and
    they leave the same state. -/
inductive Agree {ε σ α : Type} (Belong : α → α → Prop) : Except ε α × σ → Except ε α × σ → Prop where
  | failed (error : ε) (after : σ) : Agree Belong (.error error, after) (.error error, after)
  | gave {value other : α} (hvalue : Belong value other) (after : σ) :
      Agree Belong (.ok value, after) (.ok other, after)

theorem Agree.exists_eq {ε σ α : Type} {Belong : α → α → Prop} {outcome outcome' : Except ε α × σ}
    (h : Agree Belong outcome outcome') :
    (∃ error after, outcome = (.error error, after) ∧ outcome' = (.error error, after)) ∨
      ∃ value other after, Belong value other ∧ outcome = (.ok value, after) ∧ outcome' = (.ok other, after) := by
  cases h with
  | failed error after => exact .inl ⟨error, after, rfl, rfl⟩
  | gave hvalue after => exact .inr ⟨_, _, after, hvalue, rfl, rfl⟩

/-- Steps that agree, and go on alike with values that belong together, agree as a whole. -/
theorem Agree.bind {ε σ α β : Type} {Belong : α → α → Prop} {Fit : β → β → Prop}
    {step step' : ExceptT ε (StateM σ) α} {next next' : α → ExceptT ε (StateM σ) β} {before : σ}
    (h : Agree Belong (step before) (step' before))
    (hnext : ∀ value other between, Belong value other → Agree Fit (next value between) (next' other between)) :
    Agree Fit ((step >>= next) before) ((step' >>= next') before) := by
  rcases h.exists_eq with ⟨error, after, hstep, hstep'⟩ | ⟨value, other, after, hvalue, hstep, hstep'⟩
  · rw [bind_apply_error hstep, bind_apply_error hstep']
    exact .failed error after
  · rw [bind_apply_ok hstep, bind_apply_ok hstep']
    exact hnext value other after hvalue

end Run

namespace Action

variable {α : Type} {answers answers' : Answers} {known : List Text}

/-- The action never asks for a text with its directives carried out, whatever it is answered. -/
def AsksNoDirectives : Action α → Prop
  | done _ | fail _ => True
  | pushFooter _ next => next.AsksNoDirectives
  | readFooter next => ∀ footer, (next footer).AsksNoDirectives
  | readOffset next => ∀ offset, (next offset).AsksNoDirectives
  | readNames next => ∀ names, (next names).AsksNoDirectives
  | echoes _ next => ∀ answer, (next answer).AsksNoDirectives
  | statements _ _ | render _ _ => False

/-- To an action that asks for no directives it is the same what they do. -/
theorem AsksNoDirectives.run_eq {action : Action α} (h : action.AsksNoDirectives)
    (hechoes : answers.echoes = answers'.echoes) : action.run answers known = action.run answers' known := by
  induction action with
  | done | fail => rfl
  | pushFooter line next ih =>
    funext context
    exact congrFun (ih h) _
  | readFooter next ih =>
    funext context
    exact congrFun (ih context.footer (h context.footer)) context
  | readOffset next ih =>
    funext context
    exact congrFun (ih context.offset (h context.offset)) context
  | readNames next ih => exact ih known (h known)
  | echoes text next ih =>
    funext context
    have hnext := congrFun (ih (answers.echoes text context.offset) (h _)) context
    simp only [run, ← hechoes]
    exact hnext
  | statements => exact h.elim
  | render => exact h.elim

end Action

namespace Registry

variable {registry other : Registry} {answers answers' : Answers}

/-- Two registries know the same directives, and these differ in no more than the text they give: in
    every state they fail alike, and leave the same state. -/
def AgreesUpToText (registry : Registry) (answers : Answers) (other : Registry) (answers' : Answers) : Prop :=
  ∀ name, Option.Rel (fun handler handler' => ∀ argument context,
      Run.Agree (fun _ _ => True) ((handler argument).run answers registry.names context)
        ((handler' argument).run answers' other.names context))
    (registry.find? name) (other.find? name)

theorem AgreesUpToText.handler? (h : registry.AgreesUpToText answers other answers') (tag : DirectiveTag) :
    (registry.handler? tag = none ∧ other.handler? tag = none) ∨
      ∃ handler handler', registry.handler? tag = some handler ∧ other.handler? tag = some handler' ∧
        ∀ argument context, Run.Agree (fun _ _ => True) ((handler argument).run answers registry.names context)
          ((handler' argument).run answers' other.names context) := by
  have hname := h tag.name
  unfold Registry.handler?
  split
  case isTrue => exact .inl ⟨rfl, rfl⟩
  case isFalse =>
    generalize registry.find? tag.name = found at hname ⊢
    generalize other.find? tag.name = found' at hname ⊢
    cases hname with
    | none => exact .inl ⟨rfl, rfl⟩
    | some hagree => exact .inr ⟨_, _, rfl, rfl, hagree⟩

/-- A tag is carried out alike, up to the text of its output. -/
theorem AgreesUpToText.carryOutTag (h : registry.AgreesUpToText answers other answers') (start : Nat)
    (tag : DirectiveTag) (context : Context) :
    Run.Agree (List.Forall₂ Piece.SameMarkup) (registry.carryOutTag answers start tag context)
      (other.carryOutTag answers' start tag context) := by
  rcases h.handler? tag with ⟨hnone, hnone'⟩ | ⟨handler, handler', hsome, hsome', hagree⟩
  · rw [carryOutTag_of_none hnone, carryOutTag_of_none hnone']
    exact .gave (Piece.forall₂_sameMarkup_refl _) context
  · by_cases hargument : tag.argument = .unclosed
    case pos =>
      rw [carryOutTag_of_unclosed hsome hargument, carryOutTag_of_unclosed hsome' hargument]
      exact .failed _ context
    case neg =>
      rw [carryOutTag_called hsome hargument, carryOutTag_called hsome' hargument]
      refine (hagree tag.argument.text? context).bind ?_
      intro output output' between _
      exact .gave (.cons (.output _ _) .nil) between

/-- Directives that agree up to their texts leave the same markup between their outputs. -/
theorem AgreesUpToText.carryOut (h : registry.AgreesUpToText answers other answers') (offset : Nat)
    (parts : List (Text × DirectiveTag)) (last : Text) (context : Context) :
    Run.Agree (List.Forall₂ Piece.SameMarkup) (registry.carryOut answers offset parts last context)
      (other.carryOut answers' offset parts last context) := by
  induction parts generalizing offset context with
  | nil => exact .gave (Piece.forall₂_sameMarkup_refl _) context
  | cons part parts ih =>
    obtain ⟨before, tag⟩ := part
    refine (h.carryOutTag _ tag context).bind ?_
    intro here here' between hhere
    refine (ih _ between).bind ?_
    intro later later' after hlater
    have hbefore := Piece.forall₂_sameMarkup_refl (Piece.ofMarkup before offset)
    exact .gave (List.rel_append (List.rel_append hbefore hhere) hlater) after

theorem PassesAll.map_isSome {tags : List DirectiveTag} {context after : Context} {outputs : List (Option Text)}
    (h : registry.PassesAll answers tags context outputs after) :
    outputs.map Option.isSome = tags.map fun tag => (registry.handler? tag).isSome := by
  induction h with
  | nil => rfl
  | cons hfirst _ ih =>
    rw [List.map_cons, List.map_cons, ih]
    cases hfirst with
    | kept hkept => rw [hkept]; rfl
    | called hhandler => rw [hhandler]; rfl

theorem AgreesUpToText.map_isSome (h : registry.AgreesUpToText answers other answers')
    {tags : List DirectiveTag} {context context' after after' : Context} {outputs others : List (Option Text)}
    (hpasses : registry.PassesAll answers tags context outputs after)
    (hpasses' : other.PassesAll answers' tags context' others after') :
    outputs.map Option.isSome = others.map Option.isSome := by
  rw [hpasses.map_isSome, hpasses'.map_isSome]
  apply List.map_congr_left
  intro tag _
  rcases h.handler? tag with ⟨hnone, hnone'⟩ | ⟨handler, handler', hsome, hsome', -⟩
  · rw [hnone, hnone']
  · rw [hsome, hsome']
    rfl

end Registry

namespace Transpiler

variable {transpiler : Transpiler} {answers answers' : Answers} {context after : Context} {markup text : Text}

/-- Markup is emitted as a text: its directives are carried out in order, and the text that each one
    gives stands in the place of its tag as it is, between what the passes show for the rest. -/
def Emits (transpiler : Transpiler) (answers : Answers) (markup : Text) (context : Context)
    (outputs : List (Option Text)) (result : Text) (after : Context) : Prop :=
  transpiler.directives.PassesAll answers ((DirectiveTag.split markup).1.map Prod.snd) context outputs after ∧
    result = (DirectiveTag.placed context.offset [] (DirectiveTag.split markup).1 outputs
      (DirectiveTag.split markup).2).flatMap transpiler.echoes.shown

theorem emits_of_scan {pieces : List Piece} (h : transpiler.scan answers markup context = (.ok pieces, after)) :
    ∃ outputs, transpiler.Emits answers markup context outputs (pieces.flatMap transpiler.echoes.shown) after := by
  obtain ⟨outputs, hpasses, rfl⟩ := (@Registry.carryOut_eq_ok_iff _ _ _ _ _ _ [] _ _).1 h
  exact ⟨outputs, hpasses, rfl⟩

/-- Whatever the hooks do, the texts of the directives in the markup that they leave are not looked
    into. -/
theorem emits_of_renderMarkup {result : Text}
    (h : transpiler.renderMarkup answers text context = (.ok result, after)) :
    ∃ markup between outputs, transpiler.prepare answers text context = (.ok markup, between) ∧
      transpiler.Emits answers markup between outputs result after := by
  rw [renderMarkup_eq] at h
  obtain ⟨markup, between, hprepare, h⟩ := Run.exists_of_bind_eq_ok h
  obtain ⟨pieces, between', hscan, h⟩ := Run.exists_of_bind_eq_ok h
  obtain ⟨outputs, hemits⟩ := emits_of_scan hscan
  have hresult : transpiler.echoes.transpilePieces pieces = .ok result ∧ between' = after := Prod.mk.inj h
  rcases EchoPasses.transpilePieces_sameMarkup (Piece.forall₂_sameMarkup_refl pieces) with
    ⟨error, herror, -⟩ | ⟨hok, -⟩
  · rw [herror] at hresult
    nomatch hresult.1
  · rw [hok] at hresult
    obtain ⟨hresult, rfl⟩ := hresult
    cases hresult
    exact ⟨markup, between, outputs, hprepare, hemits⟩

/-- Hooks that ask for no directives leave the same markup, whatever these do. -/
theorem prepare_eq_of_asksNoDirectives {other : Registry} (depth : Nat)
    (hhooks : ∀ hook ∈ transpiler.hooks, ∀ kept, (hook kept).AsksNoDirectives)
    (hnames : transpiler.directives.names = other.names) :
    transpiler.prepare (transpiler.answersAt depth) text =
      { transpiler with directives := other }.prepare
        ({ transpiler with directives := other }.answersAt depth) text := by
  have hechoes : (transpiler.answersAt depth).echoes =
      ({ transpiler with directives := other }.answersAt depth).echoes := by
    rw [answersAt_echoes, answersAt_echoes]
  have hfold : ∀ hooks : List Hook, (∀ hook ∈ hooks, ∀ kept, (hook kept).AsksNoDirectives) → ∀ kept,
      hooks.foldlM (fun text hook =>
          (hook text).run (transpiler.answersAt depth) transpiler.directives.names) kept =
        hooks.foldlM (fun text hook =>
          (hook text).run ({ transpiler with directives := other }.answersAt depth) other.names) kept := by
    intro hooks hplain
    induction hooks with
    | nil => exact fun _ => rfl
    | cons hook hooks ih =>
      intro kept
      rw [List.forall_mem_cons] at hplain
      rw [List.foldlM_cons, List.foldlM_cons, (hplain.1 kept).run_eq hechoes, hnames]
      exact congrArg _ (funext fun left => hnames ▸ ih hplain.2 left)
  unfold prepare applyHooks
  simp only [hfold transpiler.hooks hhooks]

/-- Registries that agree up to the texts that directives give: the runs fail alike, or each shows
    the same markup in the same way around its own texts. -/
theorem renderMarkup_agree {other : Registry}
    (hagree : transpiler.directives.AgreesUpToText answers other answers')
    (hprepare : transpiler.prepare answers text context =
      { transpiler with directives := other }.prepare answers' text context) :
    (∃ error after, transpiler.renderMarkup answers text context = (.error error, after) ∧
      { transpiler with directives := other }.renderMarkup answers' text context = (.error error, after)) ∨
    ∃ markup between outputs others result result' after,
      transpiler.prepare answers text context = (.ok markup, between) ∧
      transpiler.Emits answers markup between outputs result after ∧
      { transpiler with directives := other }.Emits answers' markup between others result' after ∧
      outputs.map Option.isSome = others.map Option.isSome ∧
      transpiler.renderMarkup answers text context = (.ok result, after) ∧
      { transpiler with directives := other }.renderMarkup answers' text context = (.ok result', after) := by
  rw [renderMarkup_eq, renderMarkup_eq]
  cases hmarkup : transpiler.prepare answers text context with
  | mk outcome between =>
    rw [hmarkup] at hprepare
    cases outcome with
    | error error =>
      exact .inl ⟨error, between, Run.bind_apply_error hmarkup, Run.bind_apply_error hprepare.symm⟩
    | ok markup =>
      rw [Run.bind_apply_ok hmarkup, Run.bind_apply_ok hprepare.symm]
      have hscan : Run.Agree (List.Forall₂ Piece.SameMarkup) (transpiler.scan answers markup between)
          ({ transpiler with directives := other }.scan answers' markup between) :=
        hagree.carryOut between.offset _ _ between
      rcases hscan.exists_eq with ⟨error, after, hfails, hfails'⟩ | ⟨pieces, pieces', after, hsame, hgives, hgives'⟩
      · exact .inl ⟨error, after, Run.bind_apply_error hfails, Run.bind_apply_error hfails'⟩
      · rw [Run.bind_apply_ok hgives, Run.bind_apply_ok hgives']
        rcases transpiler.echoes.transpilePieces_sameMarkup hsame with ⟨error, hfails, hfails'⟩ | ⟨hshown, hshown'⟩
        · refine .inl ⟨error, after, ?_, ?_⟩
          · rw [hfails]
            rfl
          · rw [hfails']
            rfl
        · obtain ⟨outputs, hemits⟩ := emits_of_scan hgives
          obtain ⟨others, hemits'⟩ := emits_of_scan hgives'
          refine .inr ⟨markup, between, outputs, others, _, _, after, rfl, hemits, hemits',
            hagree.map_isSome hemits.1 hemits'.1, ?_, ?_⟩
          · rw [hshown]
            rfl
          · rw [hshown']
            rfl

/-- Emitted code is final. Pieces that differ in the texts of their outputs fail alike, or each list is
    shown piece by piece, an output as its own text. So what a directive gives is not looked into once
    markup is cut at its directives, and registries that agree up to the texts of their directives
    treat all that is around these texts in the same way. The hooks must leave the same markup: one
    that has directives carried out makes markup of what they give. -/
theorem emitted_code_final :
    (∀ (passes : EchoPasses) (pieces others : List Piece), List.Forall₂ Piece.SameMarkup pieces others →
      (∃ error, passes.transpilePieces pieces = .error error ∧ passes.transpilePieces others = .error error) ∨
        (passes.transpilePieces pieces = .ok (pieces.flatMap passes.shown) ∧
          passes.transpilePieces others = .ok (others.flatMap passes.shown))) ∧
    (∀ (transpiler : Transpiler) (answers : Answers) (text : Text) (context : Context) (result : Text)
        (after : Context), transpiler.renderMarkup answers text context = (.ok result, after) →
      ∃ markup between outputs, transpiler.prepare answers text context = (.ok markup, between) ∧
        transpiler.Emits answers markup between outputs result after) ∧
    ∀ (transpiler : Transpiler) (other : Registry) (answers answers' : Answers) (text : Text)
        (context : Context), transpiler.directives.AgreesUpToText answers other answers' →
      transpiler.prepare answers text context =
        { transpiler with directives := other }.prepare answers' text context →
      (∃ error after, transpiler.renderMarkup answers text context = (.error error, after) ∧
        { transpiler with directives := other }.renderMarkup answers' text context = (.error error, after)) ∨
      ∃ markup between outputs others result result' after,
        transpiler.prepare answers text context = (.ok markup, between) ∧
        transpiler.Emits answers markup between outputs result after ∧
        { transpiler with directives := other }.Emits answers' markup between others result' after ∧
        outputs.map Option.isSome = others.map Option.isSome ∧
        transpiler.renderMarkup answers text context = (.ok result, after) ∧
        { transpiler with directives := other }.renderMarkup answers' text context = (.ok result', after) := by
  refine ⟨?_, ?_, ?_⟩
  · intro passes pieces others hsame
    exact passes.transpilePieces_sameMarkup hsame
  · intro transpiler answers text context result after hresult
    exact emits_of_renderMarkup hresult
  · intro transpiler other answers answers' text context hagree hprepare
    exact renderMarkup_agree hagree hprepare

/-- A registry of one directive, which gives a fixed text. -/
def mediaWith (output : Text) : Registry := Registry.empty.insert "media".toList fun _ => .done output

theorem mediaWith_agrees (output other : Text) (answers answers' : Answers) :
    (mediaWith output).AgreesUpToText answers (mediaWith other) answers' := by
  intro name
  unfold mediaWith
  rw [Registry.find?_insert, Registry.find?_insert]
  split
  · exact .some fun _ context => .gave trivial context
  · exact .none

/-- An echo tag before an output. -/
def piecesWith (output : Text) : List Piece := [.markup "\x7b\x7b x \x7d\x7d".toList 0, .output output]

/-- A transpiler with a hook that puts an echo tag after the markup. -/
def echoing (output : Text) : Transpiler :=
  (standard (mediaWith output)).addHook fun text => .done (text ++ "\x7b\x7b y \x7d\x7d".toList)

theorem prepare_echoing (output other text : Text) (context : Context) :
    (echoing output).prepare ((echoing output).answersAt 1) text context =
      (echoing other).prepare ((echoing other).answersAt 1) text context := by
  have hplain : ∀ hook ∈ (echoing output).hooks, ∀ kept, (hook kept).AsksNoDirectives := by
    intro hook hhook kept
    cases List.mem_singleton.1 hhook
    trivial
  have hnames : (echoing output).directives.names = (mediaWith other).names := rfl
  exact congrFun (prepare_eq_of_asksNoDirectives 1 hplain hnames) context

/-- A directive after an echo tag. -/
def mediaAfterEcho : Text := "\x7b\x7b x \x7d\x7d<@media(a)".toList

/-- A whole echo tag and the start of one, as outputs, both stand as they are. -/
theorem emitted_code_final_mediaAfterEcho :
    let whole := echoing "\x7b\x7b a \x7d\x7d".toList
    let start := echoing "\x7b!! b".toList
    (EchoPasses.standard.transpilePieces (piecesWith "\x7b\x7b a \x7d\x7d".toList) =
        .ok "<?php echo e(x); ?>\x7b\x7b a \x7d\x7d".toList ∧
      EchoPasses.standard.transpilePieces (piecesWith "\x7b!! b".toList) =
        .ok "<?php echo e(x); ?>\x7b!! b".toList) ∧
    ∃ markup between outputs others after,
      whole.Emits (whole.answersAt 1) markup between outputs
        "<?php echo e(x); ?>\x7b\x7b a \x7d\x7d<?php echo e(y); ?>".toList after ∧
      start.Emits (start.answersAt 1) markup between others
        "<?php echo e(x); ?>\x7b!! b<?php echo e(y); ?>".toList after := by
  intro whole start
  obtain ⟨hpieces, -, hruns⟩ := emitted_code_final
  constructor
  · have hsame : List.Forall₂ Piece.SameMarkup (piecesWith "\x7b\x7b a \x7d\x7d".toList)
        (piecesWith "\x7b!! b".toList) := .cons (.markup _ _) (.cons (.output _ _) .nil)
    have hgives : EchoPasses.standard.transpilePieces (piecesWith "\x7b!! b".toList) =
        .ok "<?php echo e(x); ?>\x7b!! b".toList := by decide +kernel
    rcases hpieces EchoPasses.standard _ _ hsame with ⟨error, -, hfails⟩ | ⟨hshown, -⟩
    · rw [hfails] at hgives
      cases hgives
    · refine ⟨hshown.trans ?_, hgives⟩
      decide +kernel
  · have hwhole : (whole.renderMarkup (whole.answersAt 1) mediaAfterEcho .start).1 =
        .ok "<?php echo e(x); ?>\x7b\x7b a \x7d\x7d<?php echo e(y); ?>".toList := by decide +kernel
    have hstart : (start.renderMarkup (start.answersAt 1) mediaAfterEcho .start).1 =
        .ok "<?php echo e(x); ?>\x7b!! b<?php echo e(y); ?>".toList := by decide +kernel
    have hother : { whole with directives := start.directives } = start := rfl
    have hprepare : whole.prepare (whole.answersAt 1) mediaAfterEcho .start =
        { whole with directives := start.directives }.prepare (start.answersAt 1) mediaAfterEcho .start :=
      hother ▸ prepare_echoing _ _ _ _
    rcases hruns whole start.directives (whole.answersAt 1) (start.answersAt 1) mediaAfterEcho .start
      (mediaWith_agrees _ _ _ _) hprepare with ⟨error, after, hfails, -⟩ | ⟨markup, between, outputs, others,
        result, result', after, -, hemits, hemits', -, hresult, hresult'⟩
    · rw [hfails] at hwhole
      cases hwhole
    · rw [hother] at hemits' hresult'
      cases hwhole.symm.trans (congrArg Prod.fst hresult)
      cases hstart.symm.trans (congrArg Prod.fst hresult')
      exact ⟨markup, between, outputs, others, after, hemits, hemits'⟩

/-- A hook that has the directives carried out makes markup of what they give: of two texts that a
    directive gives, the start of an echo tag is then reported where another text is emitted. -/
theorem render_transpileStatements_ne :
    let start := (standard (mediaWith "\x7b\x7b a".toList)).addHook Action.transpileStatements
    let plain := (standard (mediaWith "a".toList)).addHook Action.transpileStatements
    (∀ depth, start.directives.AgreesUpToText (start.answersAt depth) plain.directives (plain.answersAt depth)) ∧
      plain.render "<@media(a)".toList = .ok "a".toList ∧
      start.render "<@media(a)".toList = .error (.unterminatedTag .regularEcho 0) ∧
      start.render "<@media(a)".toList ≠ .ok "\x7b\x7b a".toList := by
  intro start plain
  refine ⟨fun depth => mediaWith_agrees _ _ _ _, ?_, ?_, ?_⟩
  · decide +kernel
  · decide +kernel
  · decide +kernel

end Transpiler

end Template
