import Template.Proofs.MemoryCompile
import Template.Proofs.Standard

/-! # Served compiled forms are up to date

A session edits templates, moves the clock and asks for compiled forms in any order. Every
compiled form is at most as new as the clock, and belongs to the text of its template whenever
the template is strictly older. An edit is stamped with the clock, so it ends the second without
breaking the rule, even in the tick of a compilation; that is why a template of the same age
counts as newer.
-/

namespace Template

/-- The files in memory and what the finder remembers. -/
structure Session where
  memory : Memory
  finder : Finder

/-- What can happen in a session. -/
inductive Event where
  | wait (ticks : Nat)
  /-- A template is written, at the time of the clock. -/
  | edit (source : Path) (text : Text)
  /-- The file at a path is removed. -/
  | remove (path : Path)
  /-- The files are closed for writing, or opened again. -/
  | lock (readOnly : Bool)
  | compile (source : Path)
  /-- A template is compiled if it has to be. -/
  | compileIfStale (source : Path)
  /-- It is asked whether a template has to be compiled. -/
  | isStale (source : Path)
  /-- The place of the compiled form of a template is asked for. -/
  | compiled (source : Path)
  /-- The place of the compiled form of a view is asked for. -/
  | resolve (name : Text)

namespace Session

def engine (transpiler : Transpiler) (session : Session) : Engine := ⟨transpiler, session.finder⟩

/-- The session after an event, whether what was asked for succeeds or fails. -/
def step (transpiler : Transpiler) (session : Session) : Event → Session
  | .wait ticks => { session with memory.clock := session.memory.clock + ticks }
  | .edit source text =>
    { session with memory := session.memory.put source text session.memory.clock }
  | .remove path => { session with memory := session.memory.remove path }
  | .lock readOnly => { session with memory.readOnly := readOnly }
  | .compile source =>
    { session with
      memory := ((transpiler.compile source : FilesT (StateM Memory) (Option Path)) session.memory).2 }
  | .compileIfStale source =>
    { session with
      memory := ((transpiler.compileIfStale source : FilesT (StateM Memory) Bool) session.memory).2 }
  | .isStale source =>
    { session with
      memory := ((transpiler.isStale source : FilesT (StateM Memory) Bool) session.memory).2 }
  | .compiled source =>
    { session with
      memory := (((session.engine transpiler).compiled source :
        StateM Memory (Except ViewError Path)) session.memory).2 }
  | .resolve name =>
    let ((_, engine), memory) := ((session.engine transpiler).resolve name :
      StateM Memory (Except ViewError Path × Engine)) session.memory
    ⟨memory, engine.finder⟩

/-- The view that a name is found to mean, if one is found. -/
def view? (session : Session) (name : Text) : Option Path :=
  ((session.finder.find name : StateM Memory (Except ViewError Path × Finder)) session.memory).1.1.toOption

/-- The event is about templates of the given set. Files may be removed at any path. -/
def Allows (sources : Path → Prop) (session : Session) : Event → Prop
  | .wait _ | .remove _ | .lock _ => True
  | .edit source _ | .compile source | .compileIfStale source | .isStale source | .compiled source =>
    sources source
  | .resolve name => ∀ view ∈ session.view? name, sources view

/-- The sessions that events about the given templates lead to. -/
inductive Reaches (transpiler : Transpiler) (sources : Path → Prop) (start : Session) : Session → Prop where
  | start : Reaches transpiler sources start start
  | step {session : Session} (event : Event) (hreaches : Reaches transpiler sources start session)
      (hallows : session.Allows sources event) :
      Reaches transpiler sources start (session.step transpiler event)

end Session

/-- The compiled forms of a set of templates have places of their own. -/
structure Cache.KeepsApart (cache : Cache) (sources : Path → Prop) : Prop where
  injective : ∀ source other, sources source → sources other →
    cache.compiledPath source = cache.compiledPath other → source = other
  /-- No template stands at such a place. -/
  apart : ∀ source other, sources source → sources other → cache.compiledPath source ≠ other

namespace Memory

/-- Every compiled form is at most as new as the clock, and belongs to the text of its template if
    the template is strictly older. -/
def UpToDate (transpiler : Transpiler) (cache : Cache) (sources : Path → Prop) (memory : Memory) : Prop :=
  ∀ source artifact, sources source → memory.file? (cache.compiledPath source) = some artifact →
    artifact.time ≤ memory.clock ∧
      ∀ file, memory.file? source = some file → file.time < artifact.time →
        transpiler.render file.text = .ok artifact.text

/-- The compiled form at a place belongs to the text that a template has now. -/
def Serves (transpiler : Transpiler) (memory : Memory) (source place : Path) : Prop :=
  ∃ file artifact, memory.file? source = some file ∧ memory.file? place = some artifact ∧
    transpiler.render file.text = .ok artifact.text

section

variable {transpiler : Transpiler} {cache : Cache} {sources : Path → Prop} {memory after : Memory}
  {source path : Path} {text : Text}

theorem UpToDate.edit (h : memory.UpToDate transpiler cache sources)
    (hapart : cache.KeepsApart sources) (hsource : sources source) :
    (memory.put source text memory.clock).UpToDate transpiler cache sources := by
  intro other artifact hother hartifact
  rw [file?_put, if_neg (hapart.apart other source hother hsource)] at hartifact
  obtain ⟨htime, hbelongs⟩ := h other artifact hother hartifact
  refine ⟨htime, fun file hfile hlt => ?_⟩
  rw [file?_put] at hfile
  split at hfile
  · cases hfile
    exact absurd hlt (Nat.not_lt_of_le htime)
  · exact hbelongs file hfile hlt

theorem UpToDate.remove (h : memory.UpToDate transpiler cache sources) :
    (memory.remove path).UpToDate transpiler cache sources := by
  intro source artifact hsource hartifact
  rw [file?_remove] at hartifact
  split at hartifact
  · cases hartifact
  · obtain ⟨htime, hbelongs⟩ := h source artifact hsource hartifact
    refine ⟨htime, fun file hfile hlt => ?_⟩
    rw [file?_remove] at hfile
    split at hfile
    · cases hfile
    · exact hbelongs file hfile hlt

theorem UpToDate.mayStore (h : memory.UpToDate transpiler cache sources)
    (hapart : cache.KeepsApart sources) (hsource : sources source)
    (hstore : memory.MayStore transpiler cache source after) :
    after.UpToDate transpiler cache sources := by
  rcases hstore with rfl | ⟨file, code, hfile, hrender, rfl⟩
  · exact h
  · intro other artifact hother hartifact
    have hkept : ∀ template, sources template → (memory.put (cache.compiledPath source) code
        memory.clock).file? template = memory.file? template := by
      intro template htemplate
      rw [file?_put, if_neg (hapart.apart source template hsource htemplate).symm]
    rw [hkept other hother]
    rw [file?_put] at hartifact
    split at hartifact
    case isTrue hplace =>
      -- The compiled form has just been made of the text that is there.
      obtain rfl := hapart.injective other source hother hsource hplace
      cases hartifact
      refine ⟨Nat.le_refl _, fun current hcurrent _ => ?_⟩
      rw [hfile] at hcurrent
      cases hcurrent
      exact hrender
    case isFalse => exact h other artifact hother hartifact

/-- A compiled form that need not be made again belongs to the text that its template has. -/
theorem UpToDate.serves_of_isStale (h : memory.UpToDate transpiler cache sources)
    (hsource : sources source)
    (hstale : ((cache.isStale source : FilesT (StateM Memory) Bool) memory).1 = .ok false) :
    memory.Serves transpiler source (cache.compiledPath source) := by
  rw [Cache.isStale_apply] at hstale
  dsimp only at hstale
  cases hartifact : memory.file? (cache.compiledPath source) with
  | none =>
    rw [hartifact] at hstale
    cases hstale
  | some artifact =>
    cases hfile : memory.file? source with
    | none =>
      rw [hartifact, hfile] at hstale
      cases hstale
    | some file =>
      rw [hartifact, hfile] at hstale
      have hlt : file.time < artifact.time := by
        have hnot := of_decide_eq_false (Except.ok.inj hstale)
        exact Nat.lt_of_not_le hnot
      exact ⟨file, artifact, hfile, hartifact, (h source artifact hsource hartifact).2 file hfile hlt⟩

theorem serves_of_put {file : StoredFile} {code : Text} (hapart : cache.KeepsApart sources)
    (hsource : sources source) (hfile : memory.file? source = some file)
    (hrender : transpiler.render file.text = .ok code) :
    (memory.put (cache.compiledPath source) code memory.clock).Serves transpiler source
      (cache.compiledPath source) := by
  refine ⟨file, ⟨code, memory.clock⟩, ?_, ?_, hrender⟩
  · rw [file?_put, if_neg (hapart.apart source source hsource hsource).symm, hfile]
  · rw [file?_put, if_pos rfl]

/-- An engine that answers with a place serves what the template's text compiles to now. -/
theorem UpToDate.serves_of_compiled (engine : Engine) {place : Path}
    (h : memory.UpToDate engine.transpiler cache sources) (hapart : cache.KeepsApart sources)
    (hcache : engine.transpiler.cache = some cache) (hsource : sources source)
    (hcompiled : (engine.compiled source : StateM Memory (Except ViewError Path)) memory =
      (.ok place, after)) :
    place = cache.compiledPath source ∧ after.Serves engine.transpiler source place := by
  rw [Engine.compiled_apply engine hcache] at hcompiled
  split at hcompiled
  · cases hcompiled
  case _ written stored hstored =>
    cases hcompiled
    refine ⟨rfl, ?_⟩
    rcases Transpiler.compileIfStale_eq_ok hcache hstored with
      ⟨rfl, hstale⟩ | ⟨file, code, hfile, hrender, rfl⟩
    · exact h.serves_of_isStale hsource hstale
    · exact serves_of_put hapart hsource hfile hrender

end

end Memory

namespace Session

section

variable {transpiler : Transpiler} {cache : Cache} {sources : Path → Prop} {start session : Session}

/-- What `view?` finds is what the finder answers. -/
theorem view?_eq_some {name : Text} {view : Path} {finder : Finder}
    (h : ((session.finder.find name : StateM Memory (Except ViewError Path × Finder))
      session.memory).1 = (.ok view, finder)) : session.view? name = some view := by
  unfold view?
  rw [h]
  rfl

theorem compiled_mayStore (hcache : transpiler.cache = some cache) (finder : Finder) (source : Path)
    (memory : Memory) :
    memory.MayStore transpiler cache source
      (((⟨transpiler, finder⟩ : Engine).compiled source :
        StateM Memory (Except ViewError Path)) memory).2 := by
  have hstore := Transpiler.compileIfStale_mayStore hcache source memory
  rw [Engine.compiled_apply ⟨transpiler, finder⟩ hcache]
  dsimp only
  generalize (transpiler.compileIfStale source : FilesT (StateM Memory) Bool) memory = result at hstore ⊢
  obtain ⟨outcome, after⟩ := result
  cases outcome <;> exact hstore

theorem upToDate_step {event : Event} (hcache : transpiler.cache = some cache)
    (hapart : cache.KeepsApart sources) (hallows : session.Allows sources event)
    (h : session.memory.UpToDate transpiler cache sources) :
    (session.step transpiler event).memory.UpToDate transpiler cache sources := by
  cases event with
  | wait ticks =>
    intro source artifact hsource hartifact
    obtain ⟨htime, hbelongs⟩ := h source artifact hsource hartifact
    exact ⟨Nat.le_trans htime (Nat.le_add_right _ ticks), hbelongs⟩
  | edit source text => exact h.edit hapart hallows
  | remove path => exact h.remove
  | lock readOnly => exact h
  | compile source => exact h.mayStore hapart hallows (Transpiler.compile_mayStore hcache source _)
  | compileIfStale source =>
    exact h.mayStore hapart hallows (Transpiler.compileIfStale_mayStore hcache source _)
  | isStale source =>
    have hsame : ((transpiler.isStale source : FilesT (StateM Memory) Bool) session.memory).2 =
        session.memory := by
      rw [Transpiler.isStale_of_cache source hcache]
      exact congrArg Prod.snd (Cache.isStale_apply cache source session.memory)
    simp only [step, hsame]
    exact h
  | compiled source => exact h.mayStore hapart hallows (compiled_mayStore hcache _ source _)
  | resolve name =>
    change (((session.engine transpiler).resolve name : StateM Memory (Except ViewError Path × Engine))
      session.memory).2.UpToDate transpiler cache sources
    rw [Engine.resolve_apply]
    split
    · exact h
    case _ view finder hfind =>
      exact h.mayStore hapart (hallows view (view?_eq_some hfind))
        (compiled_mayStore hcache finder view session.memory)

/-- The rule holds in every session that starts without compiled forms. -/
theorem Reaches.upToDate (hcache : transpiler.cache = some cache) (hapart : cache.KeepsApart sources)
    (hstart : ∀ source, sources source → start.memory.file? (cache.compiledPath source) = none)
    (hreaches : Reaches transpiler sources start session) :
    session.memory.UpToDate transpiler cache sources := by
  induction hreaches with
  | start =>
    intro source artifact hsource hartifact
    rw [hstart source hsource] at hartifact
    cases hartifact
  | step event _ hallows ih => exact upToDate_step hcache hapart hallows ih

/-- Whatever has happened in a session, a template that need not be compiled has the compiled form of
    its present text, and so has every template or view whose compiled form is given out. -/
theorem Reaches.serves (hcache : transpiler.cache = some cache) (hapart : cache.KeepsApart sources)
    (hstart : ∀ source, sources source → start.memory.file? (cache.compiledPath source) = none)
    (hreaches : Reaches transpiler sources start session) :
    (∀ source, sources source →
      ((transpiler.isStale source : FilesT (StateM Memory) Bool) session.memory).1 = .ok false →
        session.memory.Serves transpiler source (cache.compiledPath source)) ∧
    (∀ source place after, sources source →
      ((session.engine transpiler).compiled source : StateM Memory (Except ViewError Path))
        session.memory = (.ok place, after) →
          place = cache.compiledPath source ∧ after.Serves transpiler source place) ∧
    (∀ name place engine after,
      ((session.engine transpiler).resolve name : StateM Memory (Except ViewError Path × Engine))
        session.memory = ((.ok place, engine), after) →
          ∃ view, session.view? name = some view ∧
            (sources view → place = cache.compiledPath view ∧ after.Serves transpiler view place)) := by
  have h := hreaches.upToDate hcache hapart hstart
  refine ⟨?_, ?_, ?_⟩
  · intro source hsource hstale
    rw [Transpiler.isStale_of_cache source hcache] at hstale
    exact h.serves_of_isStale hsource hstale
  · intro source place after hsource hcompiled
    exact Memory.UpToDate.serves_of_compiled (session.engine transpiler) h hapart hcache
      hsource hcompiled
  · intro name place engine after hresolve
    rw [Engine.resolve_apply] at hresolve
    split at hresolve
    · cases hresolve
    case _ view finder hfind =>
      refine ⟨view, view?_eq_some hfind, fun hsource => ?_⟩
      have hcompiled : ∀ place after, ((⟨transpiler, finder⟩ : Engine).compiled view :
          StateM Memory (Except ViewError Path)) session.memory = (.ok place, after) →
            place = cache.compiledPath view ∧ after.Serves transpiler view place :=
        fun _ _ => Memory.UpToDate.serves_of_compiled ⟨transpiler, finder⟩ h hapart hcache hsource
      exact hcompiled place after
        (Prod.ext (congrArg (fun result => result.1.1) hresolve) (congrArg (fun result => result.2) hresolve))

end

/-- A view that is written, and compiled a tick later. -/
def compiledPage : Path × Text := (.ofString "views/page.php", "\x7b\x7b title \x7d\x7d".toList)

/-- The standard transpiler with a cache. -/
def cachingTranspiler : Transpiler :=
  { Transpiler.standard .builtins with cache := some ⟨.ofString "cache", "php".toList⟩ }

/-- The session after that, from an empty store. -/
def pageSession : Session :=
  [Event.edit compiledPage.1 compiledPage.2, .wait 1, .compile compiledPage.1].foldl
    (step cachingTranspiler) ⟨.empty, .ofPaths [.ofString "views"]⟩

theorem Reaches.serves_pageSession :
    pageSession.memory.Serves cachingTranspiler compiledPage.1
      ((⟨.ofString "cache", "php".toList⟩ : Cache).compiledPath compiledPage.1) := by
  have hapart : Cache.KeepsApart ⟨.ofString "cache", "php".toList⟩ (· = compiledPage.1) := by
    refine ⟨fun source other hsource hother _ => hsource.trans hother.symm, ?_⟩
    rintro source other rfl rfl
    decide +kernel
  have hreaches : Reaches cachingTranspiler (· = compiledPage.1)
      ⟨.empty, .ofPaths [.ofString "views"]⟩ pageSession :=
    .step (.compile compiledPage.1)
      (.step (.wait 1) (.step (.edit compiledPage.1 compiledPage.2) .start rfl) trivial) rfl
  exact (hreaches.serves rfl hapart fun _ _ => rfl).1 compiledPage.1 rfl (by decide +kernel)

end Session

end Template
