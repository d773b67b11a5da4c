import Template.Proofs.FileEffect
import Template.Proofs.FileRender
import Template.Proofs.Freshness

/-! # What a call touches

A call either stores the compiled form of its template, when all else has succeeded, or leaves the files
as they are. So a call that fails leaves no trace, and no file but the compiled form can change. What
directives and hooks have compiled meanwhile comes on top: these compiled forms stay, whatever becomes of
the call.
-/

namespace Template

/-- What can be asked of an engine. -/
inductive Call where
  | compile (source : Path)
  | compileIfStale (source : Path)
  | isStale (source : Path)
  | compiled (source : Path)
  | resolve (name : Text)
  | render (source : Text)
  | find (name : Text)

/-- What a call is answered with. -/
inductive Reply where
  | compilation (outcome : Except TranspileError (Option Path))
  | flag (outcome : Except TranspileError Bool)
  | view (outcome : Except ViewError Path)
  | code (outcome : Except TranspileError Text)
  deriving DecidableEq

def Reply.isFailure : Reply → Bool
  | compilation outcome => !outcome.isOk
  | flag outcome => !outcome.isOk
  | view outcome => !outcome.isOk
  | code outcome => !outcome.isOk

namespace Call

/-- Makes a call of an engine with a compiler and a finder. -/
def perform {m : Type → Type} [Monad m] [Files m] (compiler : Compiler m) (finder : Finder) : Call → m Reply
  | compile source => .compilation <$> (compiler.compile source).run
  | compileIfStale source => .flag <$> (compiler.compileIfStale source).run
  | isStale source => .flag <$> (compiler.isStale source).run
  | compiled source => .view <$> compiler.compiled source
  | resolve name => (fun answer => .view answer.1) <$> compiler.resolve finder name
  | render source => .code <$> (compiler.rewrite source).run
  | find name => (fun answer => .view answer.1) <$> finder.find name

/-- The template that a call is about, if it is about one. -/
def template? (finder : Finder) (memory : Memory) : Call → Option Path
  | compile source | compileIfStale source | isStale source | compiled source => some source
  | resolve name => (⟨memory, finder⟩ : Session).view? name
  | render _ | find _ => none

/-- A journal changes nothing about a call. -/
theorem perform_journaled {compiler : Compiler JournaledMemory} {plain : Compiler (StateM Memory)}
    (hcache : compiler.cache = plain.cache) {touched : Path → Prop}
    (hrewrite : ∀ text, Journaled (fun _ => True) touched (compiler.rewrite text) (plain.rewrite text))
    (finder : Finder) (call : Call) :
    Journaled (fun _ => True) (fun _ => True) (call.perform compiler finder) (call.perform plain finder) := by
  have hany := fun text => (hrewrite text).mono (fun _ _ => trivial) fun (_ : Path) _ => trivial
  cases call with
  | compile source => exact .map _ (.compile hcache hany fun _ _ => trivial)
  | compileIfStale source => exact .map _ (.compileIfStale hcache hany fun _ _ => trivial)
  | isStale source => exact .map _ (.isStale hcache)
  | compiled source => exact .map _ (.compiled hcache hany fun _ _ => trivial)
  | resolve name =>
    refine .map _ (.bind (.find finder name fun _ _ => trivial) fun (outcome, finder) => ?_)
    cases outcome with
    | error error => exact .pure _
    | ok source => exact .bind (.compiled hcache hany fun _ _ => trivial) fun _ => .pure _
  | render source => exact .map _ (hany source)
  | find name => exact .map _ (.find finder name fun _ _ => trivial)

end Call

namespace Memory

/-- The compiled form is stored of the text that the template has before, at the time of the clock. -/
def Stores (compiler : Compiler (StateM Memory)) (cache : Cache) (source : Path) (before after : Memory) : Prop :=
  ∃ file code, before.file? source = some file ∧ (compiler.rewrite file.text before).1 = .ok code ∧
    after.file? (cache.compiledPath source) = some ⟨code, before.clock⟩

/-- The compiled form is there, and the template is strictly older. -/
def HoldsNewer (cache : Cache) (source : Path) (memory : Memory) : Prop :=
  ∃ file artifact, memory.file? source = some file ∧
    memory.file? (cache.compiledPath source) = some artifact ∧ file.time < artifact.time

variable {compiler : Compiler (StateM Memory)} {cache : Cache} {source : Path} {before after : Memory}

theorem Stores.isSome (h : before.Stores compiler cache source after) :
    (after.file? (cache.compiledPath source)).isSome = true := by
  obtain ⟨file, code, -, -, hstored⟩ := h
  rw [hstored]
  rfl

theorem HoldsNewer.isSome (h : before.HoldsNewer cache source) :
    (before.file? (cache.compiledPath source)).isSome = true := by
  obtain ⟨file, artifact, -, hartifact, -⟩ := h
  rw [hartifact]
  rfl

end Memory

theorem Cache.isStale_eq_false_iff {cache : Cache} {source : Path} {memory : Memory} :
    ((cache.isStale source : FilesT (StateM Memory) Bool) memory).1 = .ok false ↔ memory.HoldsNewer cache source := by
  rw [Cache.isStale_apply]
  dsimp only
  constructor
  · intro h
    split at h
    · cases h
    · cases h
    case _ artifact file hartifact hfile =>
      have hlt := of_decide_eq_false (Except.ok.inj h)
      exact ⟨file, artifact, hfile, hartifact, Nat.lt_of_not_le hlt⟩
  · rintro ⟨file, artifact, hfile, hartifact, hlt⟩
    rw [hfile, hartifact]
    simp only [Nat.not_le_of_lt hlt, decide_false]

namespace Compiler

section

variable {compiler : Compiler (StateM Memory)} {cache : Cache} {touched : Path → Prop}
  (hrewrite : ∀ text (memory : Memory), memory.ChangedOnly touched (compiler.rewrite text memory).2)
  (hcache : compiler.cache = some cache) (source : Path) (memory : Memory)

include hrewrite hcache

/-- A compilation fails, or it stores the compiled form last; what the rewriting does to files stays done in
    either case. -/
theorem compile_cases :
    (∃ error after, memory.ChangedOnly touched after ∧ compiler.compile source memory = (.error error, after)) ∨
      ∃ after, memory.Stores compiler cache source after ∧
        memory.ChangedOnly (fun path => touched path ∨ path = cache.compiledPath source) after ∧
        compiler.compile source memory = (.ok (some (cache.compiledPath source)), after) := by
  rw [compile_apply hcache]
  cases hfile : memory.file? source with
  | none => exact .inl ⟨_, memory, .refl memory, rfl⟩
  | some file =>
    have hbetween := hrewrite file.text memory
    dsimp only
    cases hrun : compiler.rewrite file.text memory with
    | mk outcome between =>
      rw [hrun] at hbetween
      cases outcome with
      | error error => exact .inl ⟨error, between, hbetween, rfl⟩
      | ok code =>
        dsimp only [Memory.writeText]
        cases between.readOnly with
        | true => exact .inl ⟨_, between, hbetween, rfl⟩
        | false =>
          refine .inr ⟨between.put (cache.compiledPath source) code between.clock, ?_, ?_, rfl⟩
          · refine ⟨file, code, hfile, by rw [hrun], ?_⟩
            rw [Memory.file?_put, if_pos rfl, hbetween.clock]
          · exact (hbetween.mono fun _ => .inl).trans (.put (.inr rfl) code between.clock)

theorem compileIfStale_cases :
    (¬ memory.HoldsNewer cache source ∧ ∃ error after, memory.ChangedOnly touched after ∧
        compiler.compileIfStale source memory = (.error error, after)) ∨
      (memory.HoldsNewer cache source ∧ compiler.compileIfStale source memory = (.ok false, memory)) ∨
      (¬ memory.HoldsNewer cache source ∧ ∃ after, memory.Stores compiler cache source after ∧
        memory.ChangedOnly (fun path => touched path ∨ path = cache.compiledPath source) after ∧
        compiler.compileIfStale source memory = (.ok true, after)) := by
  have hnewer := @Cache.isStale_eq_false_iff cache source memory
  rw [compileIfStale_apply hcache]
  split
  case _ error hstale =>
    rw [hstale] at hnewer
    exact .inl ⟨fun h => (by cases hnewer.2 h), error, memory, .refl memory, rfl⟩
  case _ hstale => exact .inr (.inl ⟨hnewer.1 hstale, rfl⟩)
  case _ hstale =>
    rw [hstale] at hnewer
    have hnot : ¬ memory.HoldsNewer cache source := fun h => by cases hnewer.2 h
    rcases compile_cases hrewrite hcache source memory with
      ⟨error, after, hafter, hcompile⟩ | ⟨after, hstores, hafter, hcompile⟩
    · rw [hcompile]
      exact .inl ⟨hnot, error, after, hafter, rfl⟩
    · rw [hcompile]
      exact .inr (.inr ⟨hnot, after, hstores, hafter, rfl⟩)

end

section

variable {compiler : Compiler (StateM Memory)} {touched : Path → Prop}
  (hrewrite : ∀ text (memory : Memory), memory.ChangedOnly touched (compiler.rewrite text memory).2)

include hrewrite

/-- The place of a compiled form is given out when the compiled form is there. -/
theorem compiled_cases (source : Path) (memory : Memory) :
    (∃ error after, memory.ChangedOnly touched after ∧ compiler.compiled source memory = (.error error, after)) ∨
      ∃ cache after, compiler.cache = some cache ∧ (after.file? (cache.compiledPath source)).isSome = true ∧
        memory.ChangedOnly (fun path => touched path ∨ path = cache.compiledPath source) after ∧
        compiler.compiled source memory = (.ok (cache.compiledPath source), after) := by
  cases hcache : compiler.cache with
  | none =>
    rw [compiled_of_none source hcache]
    exact .inl ⟨.cacheDisabled, memory, .refl memory, rfl⟩
  | some cache =>
    rw [compiled_apply hcache]
    rcases compileIfStale_cases hrewrite hcache source memory with
      ⟨-, error, after, hafter, hrun⟩ | ⟨hnewer, hrun⟩ | ⟨-, after, hstores, hafter, hrun⟩
    · exact .inl ⟨.transpile error, after, hafter, by rw [hrun]⟩
    · exact .inr ⟨cache, memory, rfl, hnewer.isSome, .refl memory, by rw [hrun]⟩
    · exact .inr ⟨cache, after, rfl, hstores.isSome, hafter, by rw [hrun]⟩

theorem resolve_cases (finder : Finder) (name : Text) (memory : Memory) :
    (∃ error finder' after, memory.ChangedOnly touched after ∧
        compiler.resolve finder name memory = ((.error error, finder'), after)) ∨
      ∃ view cache finder' after, (⟨memory, finder⟩ : Session).view? name = some view ∧
        compiler.cache = some cache ∧ (after.file? (cache.compiledPath view)).isSome = true ∧
        memory.ChangedOnly (fun path => touched path ∨ path = cache.compiledPath view) after ∧
        compiler.resolve finder name memory = ((.ok (cache.compiledPath view), finder'), after) := by
  rw [resolve_apply]
  split
  case _ error finder' hfind => exact .inl ⟨error, finder', memory, .refl memory, rfl⟩
  case _ view finder' hfind =>
    have hview : (⟨memory, finder⟩ : Session).view? name = some view := Session.view?_eq_some hfind
    rcases compiled_cases hrewrite view memory with
      ⟨error, after, hafter, hrun⟩ | ⟨cache, after, hcache, hthere, hafter, hrun⟩
    · rw [hrun]
      exact .inl ⟨error, finder', after, hafter, rfl⟩
    · rw [hrun]
      exact .inr ⟨view, cache, finder', after, hview, hcache, hthere, hafter, rfl⟩

end

end Compiler

namespace Call

section

variable {compiler : Compiler (StateM Memory)} {touched : Path → Prop}

theorem map_apply {α β : Type} (f : α → β) (step : StateM Memory α) (memory : Memory) :
    (f <$> step) memory = (f (step memory).1, (step memory).2) := rfl

/-- A call changes files of the set that rewriting changes; if it succeeds, it may store the compiled form of
    its template besides. -/
theorem perform_cases
    (hrewrite : ∀ text (memory : Memory), memory.ChangedOnly touched (compiler.rewrite text memory).2)
    (finder : Finder) (call : Call) (memory : Memory) :
    memory.ChangedOnly touched (call.perform compiler finder memory).2 ∨
      (call.perform compiler finder memory).1.isFailure = false ∧
        ∃ cache source, compiler.cache = some cache ∧ call.template? finder memory = some source ∧
          memory.ChangedOnly (fun path => touched path ∨ path = cache.compiledPath source)
            (call.perform compiler finder memory).2 := by
  cases call with
  | compile source =>
    simp only [perform, map_apply, ExceptT.run]
    cases hcache : compiler.cache with
    | none =>
      rw [Compiler.compile_of_none source hcache]
      exact .inl (.refl memory)
    | some cache =>
      rcases Compiler.compile_cases hrewrite hcache source memory with
        ⟨error, after, hafter, hrun⟩ | ⟨after, -, hafter, hrun⟩
      · rw [hrun]
        exact .inl hafter
      · rw [hrun]
        exact .inr ⟨rfl, cache, source, rfl, rfl, hafter⟩
  | compileIfStale source =>
    simp only [perform, map_apply, ExceptT.run]
    cases hcache : compiler.cache with
    | none =>
      rw [Compiler.compileIfStale_of_none source hcache]
      exact .inl (.refl memory)
    | some cache =>
      rcases Compiler.compileIfStale_cases hrewrite hcache source memory with
        ⟨-, error, after, hafter, hrun⟩ | ⟨-, hrun⟩ | ⟨-, after, -, hafter, hrun⟩
      · rw [hrun]
        exact .inl hafter
      · rw [hrun]
        exact .inl (.refl memory)
      · rw [hrun]
        exact .inr ⟨rfl, cache, source, rfl, rfl, hafter⟩
  | isStale source =>
    simp only [perform, map_apply, ExceptT.run, Compiler.isStale]
    cases compiler.cache with
    | none => exact .inl (.refl memory)
    | some cache =>
      dsimp only
      rw [Cache.isStale_apply]
      exact .inl (.refl memory)
  | compiled source =>
    simp only [perform, map_apply]
    rcases Compiler.compiled_cases hrewrite source memory with
      ⟨error, after, hafter, hrun⟩ | ⟨cache, after, hcache, -, hafter, hrun⟩
    · rw [hrun]
      exact .inl hafter
    · rw [hrun]
      exact .inr ⟨rfl, cache, source, hcache, rfl, hafter⟩
  | resolve name =>
    simp only [perform, map_apply]
    rcases Compiler.resolve_cases hrewrite finder name memory with
      ⟨error, finder', after, hafter, hrun⟩ | ⟨view, cache, finder', after, hview, hcache, -, hafter, hrun⟩
    · rw [hrun]
      exact .inl hafter
    · rw [hrun]
      exact .inr ⟨rfl, cache, view, hcache, hview, hafter⟩
  | render source => exact .inl (hrewrite source memory)
  | find name =>
    simp only [perform, map_apply]
    rw [finder.find_memory name memory]
    exact .inl (.refl memory)

theorem eq_of_map_eq {α β : Type} {f : α → β} {memory after : Memory} {value : α} (hf : Function.Injective f)
    {step : StateM Memory α} (h : (f <$> step) memory = (f value, after)) : step memory = (value, after) := by
  have hpair : (f (step memory).1, (step memory).2) = (f value, after) := h
  rw [Prod.mk.injEq] at hpair
  exact Prod.ext (hf hpair.1) hpair.2

variable {finder : Finder} {source : Path} {memory after : Memory}
  (hrewrite : ∀ text (memory : Memory), memory.ChangedOnly touched (compiler.rewrite text memory).2)

include hrewrite

theorem perform_compile_ok {cache : Cache} {place : Option Path} (hcache : compiler.cache = some cache)
    (h : perform compiler finder (.compile source) memory = (.compilation (.ok place), after)) :
    place = some (cache.compiledPath source) ∧ memory.Stores compiler cache source after := by
  have hrun : compiler.compile source memory = (.ok place, after) :=
    eq_of_map_eq (f := Reply.compilation) (fun _ _ => Reply.compilation.inj) h
  rcases Compiler.compile_cases hrewrite hcache source memory with
    ⟨error, stored, -, hcase⟩ | ⟨stored, hstores, -, hcase⟩
  · cases hcase.symm.trans hrun
  · cases hcase.symm.trans hrun
    exact ⟨rfl, hstores⟩

theorem perform_compileIfStale_true
    (h : perform compiler finder (.compileIfStale source) memory = (.flag (.ok true), after)) :
    ∃ cache, compiler.cache = some cache ∧ memory.Stores compiler cache source after := by
  have hrun : compiler.compileIfStale source memory = (.ok true, after) :=
    eq_of_map_eq (f := Reply.flag) (fun _ _ => Reply.flag.inj) h
  cases hcache : compiler.cache with
  | none =>
    rw [Compiler.compileIfStale_of_none source hcache] at hrun
    cases hrun
  | some cache =>
    rcases Compiler.compileIfStale_cases hrewrite hcache source memory with
      ⟨-, error, stored, -, hcase⟩ | ⟨-, hcase⟩ | ⟨-, stored, hstores, -, hcase⟩
    · cases hcase.symm.trans hrun
    · cases hcase.symm.trans hrun
    · cases hcase.symm.trans hrun
      exact ⟨cache, rfl, hstores⟩

/-- Nothing is compiled without a cache, or where the compiled form is newer. -/
theorem perform_compileIfStale_false_iff :
    perform compiler finder (.compileIfStale source) memory = (.flag (.ok false), after) ↔
      after = memory ∧ (compiler.cache = none ∨ ∃ cache, compiler.cache = some cache ∧ memory.HoldsNewer cache source) := by
  constructor
  · intro h
    have hrun : compiler.compileIfStale source memory = (.ok false, after) :=
      eq_of_map_eq (f := Reply.flag) (fun _ _ => Reply.flag.inj) h
    cases hcache : compiler.cache with
    | none =>
      rw [Compiler.compileIfStale_of_none source hcache] at hrun
      cases hrun
      exact ⟨rfl, .inl rfl⟩
    | some cache =>
      rcases Compiler.compileIfStale_cases hrewrite hcache source memory with
        ⟨-, error, stored, -, hcase⟩ | ⟨hnewer, hcase⟩ | ⟨-, stored, -, -, hcase⟩
      · cases hcase.symm.trans hrun
      · cases hcase.symm.trans hrun
        exact ⟨rfl, .inr ⟨cache, rfl, hnewer⟩⟩
      · cases hcase.symm.trans hrun
  · rintro ⟨rfl, hcache | ⟨cache, hcache, hnewer⟩⟩
    · simp only [perform, map_apply, ExceptT.run]
      rw [Compiler.compileIfStale_of_none source hcache]
      rfl
    · simp only [perform, map_apply, ExceptT.run]
      rcases Compiler.compileIfStale_cases hrewrite hcache source after with
        ⟨hnot, -⟩ | ⟨-, hcase⟩ | ⟨hnot, -⟩
      · exact absurd hnewer hnot
      · rw [hcase]
      · exact absurd hnewer hnot

/-- A place that is given out holds a file. -/
theorem perform_view_ok {place : Path} {call : Call} (hcall : (∃ source, call = .compiled source) ∨ ∃ name, call = .resolve name)
    (h : perform compiler finder call memory = (.view (.ok place), after)) : (after.file? place).isSome = true := by
  rcases hcall with ⟨source, rfl⟩ | ⟨name, rfl⟩
  · have hrun : compiler.compiled source memory = (.ok place, after) :=
      eq_of_map_eq (f := Reply.view) (fun _ _ => Reply.view.inj) h
    rcases Compiler.compiled_cases hrewrite source memory with
      ⟨error, stored, -, hcase⟩ | ⟨cache, stored, -, hthere, -, hcase⟩
    · cases hcase.symm.trans hrun
    · cases hcase.symm.trans hrun
      exact hthere
  · simp only [perform, map_apply] at h
    rcases Compiler.resolve_cases hrewrite finder name memory with
      ⟨error, finder', stored, -, hcase⟩ | ⟨view, cache, finder', stored, -, -, hthere, -, hcase⟩
    · rw [hcase] at h
      cases h
    · rw [hcase] at h
      cases h
      exact hthere

end

/-- That nothing is compiled is found out by looking at files, and without a cache by nothing. -/
theorem perform_compileIfStale_false_noted {compiler : Compiler JournaledMemory} {finder : Finder} {source : Path}
    {journal noted : Journal} {memory after : Memory}
    (h : perform compiler finder (.compileIfStale source) journal memory = ((.flag (.ok false), noted), after))
    (hwhy : compiler.cache = none ∨ ∃ cache, compiler.cache = some cache ∧ memory.HoldsNewer cache source) :
    (compiler.cache = none → noted = journal) ∧
      ∃ asked : Journal, (∀ request ∈ asked, request.isLook = true) ∧ noted = journal ++ asked := by
  have hrun : compiler.compileIfStale source journal memory = ((.ok false, noted), after) := by
    have hpair : ((Reply.flag (compiler.compileIfStale source journal memory).1.1, _), _) =
        ((Reply.flag (.ok false), noted), after) := h
    simp only [Prod.mk.injEq, Reply.flag.injEq] at hpair
    exact Prod.ext (Prod.ext hpair.1.1 hpair.1.2) hpair.2
  rcases hwhy with hcache | ⟨cache, hcache, hnewer⟩
  · rw [Compiler.compileIfStale_of_none source hcache] at hrun
    cases hrun
    exact ⟨fun _ => rfl, [], by simp, by simp⟩
  · refine ⟨fun hnone => (by rw [hcache] at hnone; cases hnone), ?_⟩
    have hjournaled : Journaled (fun request => request.isLook = true) (fun _ => False)
        (cache.isStale source : FilesT JournaledMemory Bool) (cache.isStale source : FilesT (StateM Memory) Bool) :=
      Journaled.cache_isStale cache source fun _ hlook => hlook
    obtain ⟨-, asked, hlooks, hstale⟩ := hjournaled journal memory
    rw [Cache.isStale_eq_false_iff.2 hnewer] at hstale
    have hbind : compiler.compileIfStale source journal memory =
        ((.ok false, journal ++ asked), ((cache.isStale source : FilesT (StateM Memory) Bool) memory).2) := by
      rw [Compiler.compileIfStale_of_cache source hcache]
      exact Journaled.bind_apply_ok hstale
    rw [hbind] at hrun
    exact ⟨asked, hlooks, (congrArg (·.1.2) hrun).symm⟩

/-- Whatever is asked of an engine: a call that fails changes no file, and a call that succeeds none but the
    compiled form of its template; except that the templates which directives and hooks have compiled get their
    compiled forms as well. A compilation that succeeds stores its compiled form, in any case or exactly if it
    tells so; it is left out without asking for a file if there is no cache, and without reading or writing if
    it is newer than the template. A place given out holds a file. -/
theorem perform_effect {transpiler : FileTranspiler} {sources : Path → Prop}
    (h : transpiler.CompilesOnly sources) (limit : Text → Nat) (finder : Finder) (journal : Journal)
    (memory : Memory) :
    (∀ call reply noted after,
      (perform (transpiler.compiler limit) finder call : JournaledMemory Reply) journal memory =
          ((reply, noted), after) →
        ∀ path, after.file? path ≠ memory.file? path → transpiler.Stored sources path ∨
          reply.isFailure = false ∧ ∃ cache source, transpiler.cache = some cache ∧
            call.template? finder memory = some source ∧ path = cache.compiledPath source) ∧
    (∀ cache source place noted after, transpiler.cache = some cache →
      (perform (transpiler.compiler limit) finder (.compile source) : JournaledMemory Reply) journal memory =
          ((.compilation (.ok place), noted), after) →
        place = some (cache.compiledPath source) ∧
          memory.Stores (transpiler.compiler limit) cache source after) ∧
    (∀ source noted after,
      (perform (transpiler.compiler limit) finder (.compileIfStale source) : JournaledMemory Reply) journal memory =
          ((.flag (.ok true), noted), after) →
        ∃ cache, transpiler.cache = some cache ∧ memory.Stores (transpiler.compiler limit) cache source after) ∧
    (∀ source, (∃ noted after,
      (perform (transpiler.compiler limit) finder (.compileIfStale source) : JournaledMemory Reply) journal memory =
          ((.flag (.ok false), noted), after)) ↔
        transpiler.cache = none ∨ ∃ cache, transpiler.cache = some cache ∧ memory.HoldsNewer cache source) ∧
    (∀ source noted after,
      (perform (transpiler.compiler limit) finder (.compileIfStale source) : JournaledMemory Reply) journal memory =
          ((.flag (.ok false), noted), after) →
        after = memory ∧ (transpiler.cache = none → noted = journal) ∧
          ∃ asked : Journal, (∀ request ∈ asked, request.isLook = true) ∧ noted = journal ++ asked) ∧
    (∀ source place noted after,
      (perform (transpiler.compiler limit) finder (.compiled source) : JournaledMemory Reply) journal memory =
          ((.view (.ok place), noted), after) → (after.file? place).isSome = true) ∧
    ∀ name place noted after,
      (perform (transpiler.compiler limit) finder (.resolve name) : JournaledMemory Reply) journal memory =
          ((.view (.ok place), noted), after) → (after.file? place).isSome = true := by
  have hjournaled := FileTranspiler.rewrite_journaled h limit
  have hrewrite : ∀ text (memory : Memory), memory.ChangedOnly (transpiler.Stored sources)
      ((transpiler.compiler limit : Compiler (StateM Memory)).rewrite text memory).2 :=
    fun text memory => (hjournaled text [] memory).1
  -- What a call answers over journaled files, it answers over the files alone.
  have plain : ∀ {call reply noted after},
      (perform (transpiler.compiler limit) finder call : JournaledMemory Reply) journal memory =
          ((reply, noted), after) →
        (perform (transpiler.compiler limit) finder call : StateM Memory Reply) memory = (reply, after) := by
    intro call reply noted after hcall
    obtain ⟨-, asked, -, hstep⟩ := perform_journaled rfl hjournaled finder call journal memory
    rw [hcall] at hstep
    exact Prod.ext (congrArg (·.1.1) hstep).symm (congrArg Prod.snd hstep).symm
  refine ⟨?_, ?_, ?_, ?_, ?_, ?_, ?_⟩
  · intro call reply noted after hcall path hpath
    have hcases := perform_cases hrewrite finder call memory
    rw [plain hcall] at hcases
    rcases hcases with hchanged | ⟨hfine, cache, source, hcache, hsource, hchanged⟩
    · exact .inl (hchanged.mem path hpath)
    · exact (hchanged.mem path hpath).imp_right fun hplace => ⟨hfine, cache, source, hcache, hsource, hplace⟩
  · intro cache source place noted after hcache hcall
    exact perform_compile_ok hrewrite hcache (plain hcall)
  · intro source noted after hcall
    exact perform_compileIfStale_true hrewrite (plain hcall)
  · intro source
    constructor
    · rintro ⟨noted, after, hcall⟩
      exact ((perform_compileIfStale_false_iff hrewrite).1 (plain hcall)).2
    · intro hwhy
      obtain ⟨-, asked, -, hstep⟩ := perform_journaled rfl hjournaled finder (.compileIfStale source) journal memory
      rw [(perform_compileIfStale_false_iff hrewrite).2 ⟨rfl, hwhy⟩] at hstep
      exact ⟨_, _, hstep⟩
  · intro source noted after hcall
    obtain ⟨rfl, hwhy⟩ := (perform_compileIfStale_false_iff hrewrite).1 (plain hcall)
    exact ⟨rfl, perform_compileIfStale_false_noted hcall hwhy⟩
  · intro source place noted after hcall
    exact perform_view_ok hrewrite (.inl ⟨source, rfl⟩) (plain hcall)
  · intro name place noted after hcall
    exact perform_view_ok hrewrite (.inr ⟨name, rfl⟩) (plain hcall)

theorem eq_of_reply {step : JournaledMemory Reply} {journal : Journal} {memory : Memory} {reply : Reply}
    (h : (step journal memory).1.1 = reply) :
    step journal memory = ((reply, (step journal memory).1.2), (step journal memory).2) :=
  Prod.ext (Prod.ext h rfl) rfl

/-- A template that others need. -/
def neededPart : Path := .ofString "views/part.php"

/-- A directive that has this template compiled if it has to be, and leaves nothing in its own place. -/
def needPart : FileHandler := fun _ => .compileIfStale neededPart fun
  | .ok _ => .done []
  | .error error => .fail error

/-- The standard transpiler with a cache and this directive. -/
def needing : FileTranspiler :=
  { Session.cachingTranspiler.overFiles with
    directives := Session.cachingTranspiler.overFiles.directives.insert "need".toList needPart }

theorem needing_compilesOnly : needing.CompilesOnly (· = neededPart) := by
  refine ⟨fun name handler hfind argument => ?_, nofun⟩
  change (Session.cachingTranspiler.overFiles.directives.insert "need".toList needPart).find? name = some handler at hfind
  rw [Table.find?_insert] at hfind
  split at hfind
  · cases hfind
    refine ⟨rfl, fun answer => ?_⟩
    cases answer <;> trivial
  · exact (Session.cachingTranspiler.compilesOnly_overFiles _).directives name handler hfind argument

/-- A page that needs the part. -/
def needingPage : Path × Text := (.ofString "views/both.php", "<@need\x7b\x7b title \x7d\x7d".toList)

/-- The files after a page was compiled, with the part and a page that needs it written since. -/
def needingMemory : Memory :=
  let memory := Session.pageSession.memory
  (memory.put neededPart ['a'] memory.clock).put needingPage.1 needingPage.2 memory.clock

/-- The finder of the page, and the cache. -/
def pageFinder : Finder := Session.pageSession.finder
def pageCache : Cache := ⟨.ofString "cache", "php".toList⟩

/-- A page that needs a part is compiled at the time of the clock, and the part with it. The page that was
    compiled a tick after it was written is not compiled again, which takes three looks; and a page that is
    missing leaves the files as they are. -/
theorem perform_effect_pageSession :
    needing.CompilesOnly (· = neededPart) ∧
      (∃ noted after,
        (perform (needing.compiler Transpiler.nestingLimit) pageFinder (.compile needingPage.1) : JournaledMemory Reply)
            [] needingMemory =
          ((.compilation (.ok (some (pageCache.compiledPath needingPage.1))), noted), after) ∧
        after.file? (pageCache.compiledPath needingPage.1) = some ⟨"<?php echo e(title); ?>".toList, 1⟩ ∧
        after.file? (pageCache.compiledPath neededPart) = some ⟨['a'], 1⟩ ∧
        ∀ path, after.file? path ≠ needingMemory.file? path →
          path = pageCache.compiledPath neededPart ∨ path = pageCache.compiledPath needingPage.1) ∧
      (∃ noted,
        (perform (needing.compiler Transpiler.nestingLimit) pageFinder (.compileIfStale Session.compiledPage.1) :
            JournaledMemory Reply) [] needingMemory =
          ((.flag (.ok false), noted), needingMemory) ∧
        noted.length = 3 ∧ ∀ request ∈ noted, request.isLook = true) ∧
      (∃ place noted after,
        (perform (needing.compiler Transpiler.nestingLimit) pageFinder (.resolve "page".toList) :
            JournaledMemory Reply) [] needingMemory = ((.view (.ok place), noted), after) ∧
        (after.file? place).isSome = true) ∧
      ∃ error noted after,
        (perform (needing.compiler Transpiler.nestingLimit) pageFinder (.compile (.ofString "views/none.php")) :
            JournaledMemory Reply) [] needingMemory = ((.compilation (.error error), noted), after) ∧
        ∀ path, after.file? path ≠ needingMemory.file? path → needing.Stored (· = neededPart) path := by
  obtain ⟨hframe, hstores, -, -, hskipped, -, hresolved⟩ :=
    perform_effect needing_compilesOnly Transpiler.nestingLimit pageFinder [] needingMemory
  refine ⟨needing_compilesOnly, ?_, ?_, ?_, ?_⟩
  · obtain ⟨hreply, hpart⟩ : ((perform (needing.compiler Transpiler.nestingLimit) pageFinder
          (.compile needingPage.1) : JournaledMemory Reply) [] needingMemory).1.1 =
            .compilation (.ok (some (pageCache.compiledPath needingPage.1))) ∧
        ((perform (needing.compiler Transpiler.nestingLimit) pageFinder
          (.compile needingPage.1) : JournaledMemory Reply) [] needingMemory).2.file?
            (pageCache.compiledPath neededPart) = some ⟨['a'], 1⟩ := by decide +kernel
    have hcode : ((needing.compiler Transpiler.nestingLimit : Compiler (StateM Memory)).rewrite needingPage.2
        needingMemory).1 = .ok "<?php echo e(title); ?>".toList := by decide +kernel
    obtain ⟨-, file, code, hfile, hrewrite, hstored⟩ := hstores pageCache needingPage.1 _ _ _ rfl
      (eq_of_reply hreply)
    have htext : file.text = needingPage.2 := by
      have hsource : needingMemory.file? needingPage.1 = some ⟨needingPage.2, 1⟩ := by decide +kernel
      cases hsource.symm.trans hfile
      rfl
    have hclock : needingMemory.clock = 1 := by decide +kernel
    rw [htext, hcode] at hrewrite
    cases hrewrite
    rw [hclock] at hstored
    refine ⟨_, _, eq_of_reply hreply, hstored, hpart, fun path hpath => ?_⟩
    rcases hframe _ _ _ _ (eq_of_reply hreply) path hpath with
      ⟨cache, source, hcache, rfl, hplace⟩ | ⟨-, cache, source, hcache, hsource, hplace⟩
    · cases hcache
      exact .inl hplace
    · cases hcache
      cases hsource
      exact .inr hplace
  · obtain ⟨hreply, hlength⟩ : ((perform (needing.compiler Transpiler.nestingLimit) pageFinder
          (.compileIfStale Session.compiledPage.1) : JournaledMemory Reply) [] needingMemory).1.1 =
            .flag (.ok false) ∧
        ((perform (needing.compiler Transpiler.nestingLimit) pageFinder
          (.compileIfStale Session.compiledPage.1) : JournaledMemory Reply) [] needingMemory).1.2.length = 3 := by
      decide +kernel
    obtain ⟨hsame, -, asked, hlooks, hnoted⟩ := hskipped Session.compiledPage.1 _ _
      (eq_of_reply hreply)
    have hrun := eq_of_reply hreply
    rw [hsame] at hrun
    exact ⟨_, hrun, hlength, hnoted ▸ hlooks⟩
  · have hreply : ((perform (needing.compiler Transpiler.nestingLimit) pageFinder (.resolve "page".toList) :
        JournaledMemory Reply) [] needingMemory).1.1 =
          .view (.ok (pageCache.compiledPath Session.compiledPage.1)) := by decide +kernel
    have hthere := hresolved "page".toList _ _ _ (eq_of_reply hreply)
    exact ⟨_, _, _, eq_of_reply hreply, hthere⟩
  · have hreply : ((perform (needing.compiler Transpiler.nestingLimit) pageFinder
        (.compile (.ofString "views/none.php")) : JournaledMemory Reply) [] needingMemory).1.1 =
          .compilation (.error (.io (.noSuchFile (.ofString "views/none.php")))) := by decide +kernel
    refine ⟨_, _, _, eq_of_reply hreply, fun path hpath => ?_⟩
    exact (hframe _ _ _ _ (eq_of_reply hreply) path hpath).resolve_right fun hfine => by
      cases hfine.1

/-- The same files with a page that fails after the part was asked for, and the files after a page was
    compiled, closed for writing. -/
def failingMemory : Memory := needingMemory.put needingPage.1 "<@need\x7b\x7b title".toList 1
def closedMemory : Memory := { Session.pageSession.memory with readOnly := true }

/-- What compiling a page answers, and the files after it. -/
def compilePage (transpiler : FileTranspiler) (source : Path) (memory : Memory) : Reply × Memory :=
  (perform (transpiler.compiler Transpiler.nestingLimit) pageFinder (.compile source) : StateM Memory Reply) memory

/-- What a directive has compiled is stored next to what the call stores, and it stays when the call fails
    later on. Over files that are closed for writing a compilation stores nothing, though its template has
    code. -/
theorem perform_effect_ne :
    ((compilePage needing needingPage.1 failingMemory).1.isFailure = true ∧
      failingMemory.file? (pageCache.compiledPath neededPart) = none ∧
      (compilePage needing needingPage.1 failingMemory).2.file? (pageCache.compiledPath neededPart) =
        some ⟨['a'], 1⟩) ∧
    ((compilePage needing needingPage.1 needingMemory).1.isFailure = false ∧
      pageCache.compiledPath neededPart ≠ pageCache.compiledPath needingPage.1 ∧
      needingMemory.file? (pageCache.compiledPath neededPart) = none ∧
      (compilePage needing needingPage.1 needingMemory).2.file? (pageCache.compiledPath neededPart) =
        some ⟨['a'], 1⟩) ∧
    (Session.cachingTranspiler.render Session.compiledPage.2).isOk = true ∧
      (compilePage Session.cachingTranspiler.overFiles Session.compiledPage.1 closedMemory).1.isFailure = true ∧
      (compilePage Session.cachingTranspiler.overFiles Session.compiledPage.1 closedMemory).2 = closedMemory := by
  decide +kernel

end Call

end Template
