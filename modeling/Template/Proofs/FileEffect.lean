import Template.Proofs.Journaled
import Template.Transpiler.FileRender

/-! # What rewriting does to files

A directive or a hook that has template files compiled changes their compiled forms, and no other file. So
it is with everything that such directives and hooks take part in: if they compile only templates of a given
set, then a text is rewritten, whatever it is, without a change to any file but the compiled forms of these.
-/

namespace Template

namespace FileAction

variable {α : Type}

/-- Whatever it is answered, the action has only templates of the given set compiled. -/
def CompilesOnly (sources : Path → Prop) : FileAction α → Prop
  | done _ | fail _ => True
  | pushFooter _ next => next.CompilesOnly sources
  | readFooter next => ∀ footer, (next footer).CompilesOnly sources
  | readOffset next => ∀ offset, (next offset).CompilesOnly sources
  | readNames next => ∀ names, (next names).CompilesOnly sources
  | statements _ next | echoes _ next | render _ next => ∀ answer, (next answer).CompilesOnly sources
  | compiledPath _ next => ∀ place, (next place).CompilesOnly sources
  | isStale _ next => ∀ answer, (next answer).CompilesOnly sources
  | compile source next => sources source ∧ ∀ answer, (next answer).CompilesOnly sources
  | compileIfStale source next => sources source ∧ ∀ answer, (next answer).CompilesOnly sources

end FileAction

namespace FileTranspiler

variable (transpiler : FileTranspiler)

/-- The directives and hooks have only templates of the given set compiled. -/
structure CompilesOnly (sources : Path → Prop) : Prop where
  directives : ∀ name handler, transpiler.directives.find? name = some handler →
    ∀ argument, (handler argument).CompilesOnly sources
  hooks : ∀ hook ∈ transpiler.hooks, ∀ text, (hook text).CompilesOnly sources

/-- A place where the compiled form of a template of the given set is stored. -/
def Stored (sources : Path → Prop) (place : Path) : Prop :=
  ∃ cache source, transpiler.cache = some cache ∧ sources source ∧ place = cache.compiledPath source

end FileTranspiler

/-- An action that works on text alone has nothing compiled. -/
theorem Action.compilesOnly_overFiles {α : Type} (sources : Path → Prop) (action : Action α) :
    action.overFiles.CompilesOnly sources := by
  induction action with
  | done | fail => trivial
  | pushFooter line next ih => exact ih
  | readFooter next ih | readOffset next ih | readNames next ih => exact ih
  | statements text next ih | echoes text next ih | render text next ih => exact ih

theorem Transpiler.compilesOnly_overFiles (transpiler : Transpiler) (sources : Path → Prop) :
    transpiler.overFiles.CompilesOnly sources := by
  constructor
  · intro name handler hfind argument
    have hmap := (transpiler.directives.table.find?_map _ name).symm.trans hfind
    obtain ⟨plain, -, rfl⟩ := Option.map_eq_some_iff.1 hmap
    exact Action.compilesOnly_overFiles sources _
  · intro hook hmem text
    obtain ⟨plain, -, rfl⟩ := List.mem_map.1 hmem
    exact Action.compilesOnly_overFiles sources _

/-- A step of a run over journaled files is the plain step, and changes files of the given set only. -/
def FileRunM.Journaled {α : Type} (touched : Path → Prop) (step : FileRunM JournaledMemory α)
    (plain : FileRunM (StateM Memory) α) : Prop :=
  ∀ context, Template.Journaled (fun _ => True) touched (step context) (plain context)

namespace FileRunM.Journaled

variable {α β : Type} {touched : Path → Prop} {step : FileRunM JournaledMemory α}
  {plain : FileRunM (StateM Memory) α} {next : α → FileRunM JournaledMemory β}
  {plainNext : α → FileRunM (StateM Memory) β}

theorem outcome (value : Except TranspileError α) :
    Journaled touched (FileTranspiler.liftExcept value) (FileTranspiler.liftExcept value) :=
  fun context => .pure (value, context)

theorem pure (value : α) : Journaled touched (Pure.pure value) (Pure.pure value) := outcome (.ok value)

theorem get : Journaled touched (get : FileRunM JournaledMemory Context) (get : FileRunM (StateM Memory) Context) :=
  fun context => .pure (Except.ok context, context)

theorem modify (f : Context → Context) :
    Journaled touched (modify f : FileRunM JournaledMemory PUnit) (modify f : FileRunM (StateM Memory) PUnit) :=
  fun context => .pure (Except.ok PUnit.unit, f context)

theorem bind (h : Journaled touched step plain) (hnext : ∀ value, Journaled touched (next value) (plainNext value)) :
    Journaled touched (step >>= next) (plain >>= plainNext) := by
  intro context
  refine @Template.Journaled.bind _ (Except TranspileError β × Context) _ touched _ _
    (fun (outcome, after) => ExceptT.bindCont next outcome after)
    (fun (outcome, after) => ExceptT.bindCont plainNext outcome after) (h context) fun (outcome, after) => ?_
  cases outcome with
  | error error => exact .pure (Except.error error, after)
  | ok value => exact hnext value after

theorem map (f : α → β) (h : Journaled touched step plain) : Journaled touched (f <$> step) (f <$> plain) := by
  rw [map_eq_pure_bind, map_eq_pure_bind]
  exact h.bind fun value => .pure (f value)

/-- An action goes on after a step over files. -/
theorem ask {step : FilesT JournaledMemory β} {plain : FilesT (StateM Memory) β}
    {next : Except TranspileError β → FileRunM JournaledMemory α}
    {plainNext : Except TranspileError β → FileRunM (StateM Memory) α}
    (h : Template.Journaled (fun _ => True) touched step plain)
    (hnext : ∀ answer, Journaled touched (next answer) (plainNext answer)) :
    Journaled touched (FileAction.ask step next) (FileAction.ask plain plainNext) := by
  intro context
  refine Template.Journaled.bind h fun answer => ?_
  split
  · exact .pure _
  · exact hnext answer context

end FileRunM.Journaled

/-- Answers over journaled files are the plain ones, and change files of the given set only. -/
structure FileAnswers.Journaled (touched : Path → Prop) (answers : FileAnswers JournaledMemory)
    (plain : FileAnswers (StateM Memory)) : Prop where
  statements : ∀ text, FileRunM.Journaled touched (answers.statements text) (plain.statements text)
  echoes : answers.echoes = plain.echoes
  cache : answers.compiler.cache = plain.compiler.cache
  rewrite : ∀ text, Template.Journaled (fun _ => True) touched (answers.compiler.rewrite text)
    (plain.compiler.rewrite text)

section

variable {touched sources : Path → Prop} {answers : FileAnswers JournaledMemory}
  {plain : FileAnswers (StateM Memory)}

theorem FileAction.journaled {α : Type} {known : List Text} {action : FileAction α}
    (haction : action.CompilesOnly sources) (h : answers.Journaled touched plain)
    (htouched : ∀ source place, sources source → plain.compiler.compiledPath? source = some place → touched place) :
    FileRunM.Journaled touched (action.run answers known) (action.run plain known) := by
  induction action with
  | done value => exact .pure value
  | fail error => exact .outcome (.error error)
  | pushFooter line next ih => exact fun context => ih haction _
  | readFooter next ih | readOffset next ih => exact fun context => ih _ (haction _) context
  | readNames next ih => exact ih _ (haction known)
  | statements text next ih =>
    intro context
    refine Template.Journaled.bind (h.statements text context) fun (answer, after) => ?_
    dsimp only
    split
    · exact .pure _
    · exact ih answer (haction answer) after
  | echoes text next ih =>
    intro context
    change Template.Journaled _ _ ((next (answers.echoes text context.offset)).run answers known context) _
    rw [h.echoes]
    exact ih _ (haction _) context
  | render text next ih => exact .ask (h.rewrite text) fun answer => ih answer (haction answer)
  | compiledPath source next ih =>
    have hsame : answers.compiler.compiledPath? source = plain.compiler.compiledPath? source := by
      rw [Compiler.compiledPath?, Compiler.compiledPath?, h.cache]
    change FileRunM.Journaled touched ((next (answers.compiler.compiledPath? source)).run answers known) _
    rw [hsame]
    exact ih _ (haction _)
  | isStale source next ih => exact .ask (.isStale h.cache) fun answer => ih answer (haction answer)
  | compile source next ih =>
    exact .ask (.compile h.cache h.rewrite fun place => htouched source place haction.1) fun answer =>
      ih answer (haction.2 answer)
  | compileIfStale source next ih =>
    exact .ask (.compileIfStale h.cache h.rewrite fun place => htouched source place haction.1) fun answer =>
      ih answer (haction.2 answer)

namespace FileTranspiler

variable {transpiler : FileTranspiler} (htranspiler : transpiler.CompilesOnly sources)
  (h : answers.Journaled touched plain)
  (htouched : ∀ source place, sources source → plain.compiler.compiledPath? source = some place → touched place)

include htranspiler h htouched

theorem carryOutTag_journaled (start : Nat) (tag : DirectiveTag) :
    FileRunM.Journaled touched (transpiler.carryOutTag answers start tag) (transpiler.carryOutTag plain start tag) := by
  unfold carryOutTag
  split
  case _ => exact .pure _
  case _ handler hhandler =>
    have hfind : transpiler.directives.find? tag.name = some handler := by
      split at hhandler
      · cases hhandler
      · exact hhandler
    have hcall := fun argument =>
      @FileAction.journaled _ _ _ _ _ transpiler.names _ (htranspiler.directives _ _ hfind argument) h htouched
    dsimp only
    split
    · exact .outcome (.error _)
    · exact (hcall _).bind fun output => .pure _
    · exact (hcall _).bind fun output => .pure _

theorem carryOut_journaled (offset : Nat) (parts : List (Text × DirectiveTag)) (last : Text) :
    FileRunM.Journaled touched (transpiler.carryOut answers offset parts last)
      (transpiler.carryOut plain offset parts last) := by
  induction parts generalizing offset with
  | nil => exact .pure _
  | cons part parts ih =>
    obtain ⟨before, tag⟩ := part
    unfold carryOut
    exact (carryOutTag_journaled htranspiler h htouched _ tag).bind fun here => (ih _).bind fun later => .pure _

theorem scan_journaled (text : Text) :
    FileRunM.Journaled touched (transpiler.scan answers text) (transpiler.scan plain text) :=
  FileRunM.Journaled.get.bind fun context => carryOut_journaled htranspiler h htouched context.offset _ _

theorem applyHooks_journaled (text : Text) :
    FileRunM.Journaled touched (transpiler.applyHooks answers text) (transpiler.applyHooks plain text) := by
  unfold applyHooks
  have hhooks := htranspiler.hooks
  generalize transpiler.hooks = hooks at hhooks
  induction hooks generalizing text with
  | nil => exact .pure _
  | cons hook hooks ih =>
    rw [List.foldlM_cons, List.foldlM_cons]
    exact (FileAction.journaled (hhooks hook List.mem_cons_self text) h htouched).bind fun text =>
      ih text fun later hlater => hhooks later (List.mem_cons_of_mem hook hlater)

theorem renderMarkup_journaled (text : Text) :
    FileRunM.Journaled touched (transpiler.renderMarkup answers text) (transpiler.renderMarkup plain text) := by
  refine FileRunM.Journaled.get.bind fun context => (FileRunM.Journaled.outcome _).bind fun kept => ?_
  exact (applyHooks_journaled htranspiler h htouched kept).bind fun markup =>
    (scan_journaled htranspiler h htouched markup).bind fun pieces => .outcome _

theorem renderSpans_journaled (spans : List Span) :
    FileRunM.Journaled touched (transpiler.renderSpans answers spans) (transpiler.renderSpans plain spans) := by
  induction spans with
  | nil => exact .pure _
  | cons span spans ih =>
    obtain ⟨kind, text, offset⟩ := span
    cases kind with
    | native => exact (FileRunM.Journaled.pure text).bind fun here => ih.bind fun later => .pure _
    | markup =>
      refine (FileRunM.Journaled.modify fun context => { context with offset }).bind fun _ => ?_
      exact (renderMarkup_journaled htranspiler h htouched text).bind fun here => ih.bind fun later => .pure _

theorem renderWith_journaled (source : Text) :
    Journaled (fun _ => True) touched (transpiler.renderWith answers source) (transpiler.renderWith plain source) :=
  .bind (renderSpans_journaled htranspiler h htouched (Span.ofText source) .start) fun _ => .pure _

end FileTranspiler

end

namespace FileTranspiler

variable {transpiler : FileTranspiler} {sources : Path → Prop} (htranspiler : transpiler.CompilesOnly sources)

include htranspiler

/-- However deeply requests may nest, answering them changes compiled forms of the given set only. -/
theorem answersAt_journaled (depth : Nat) :
    (transpiler.answersAt depth : FileAnswers JournaledMemory).Journaled (transpiler.Stored sources)
      (transpiler.answersAt depth) := by
  induction depth with
  | zero => exact ⟨fun _ => .outcome (.error .nesting), rfl, rfl, fun _ => .pure (Except.error TranspileError.nesting)⟩
  | succ depth ih =>
    have htouched : ∀ source place, sources source →
        (transpiler.answersAt depth : FileAnswers (StateM Memory)).compiler.compiledPath? source = some place →
          transpiler.Stored sources place := by
      intro source place hsource hplace
      have hcache : (transpiler.answersAt depth : FileAnswers (StateM Memory)).compiler.cache = transpiler.cache := by
        cases depth <;> rfl
      rw [Compiler.compiledPath?, hcache] at hplace
      obtain ⟨cache, hcache, rfl⟩ := Option.map_eq_some_iff.1 hplace
      exact ⟨cache, source, hcache, hsource, rfl⟩
    exact ⟨fun text => (scan_journaled htranspiler ih htouched text).map Piece.joined, rfl, rfl,
      renderWith_journaled htranspiler ih htouched⟩

/-- A text is rewritten without a change to any file but compiled forms of the given set. -/
theorem rewrite_journaled (limit : Text → Nat) (source : Text) :
    Journaled (fun _ => True) (transpiler.Stored sources)
      ((transpiler.compiler limit : Compiler JournaledMemory).rewrite source)
      ((transpiler.compiler limit : Compiler (StateM Memory)).rewrite source) :=
  -- One level deeper, this is how a request for the text is answered.
  (answersAt_journaled htranspiler (limit source + 1)).rewrite source

end FileTranspiler

end Template
