import Template.Files.Journal
import Template.Proofs.MemoryCompile

/-! # What a step does to files in memory

A step over files in memory may change the files of a given set, and no others. A journal kept over the files
changes nothing: the answer and the store are the same, and the journal is the earlier one with the requests
of the step after it. Both go through one step after another.
-/

namespace Template

namespace Memory

/-- Apart from a set of paths, every file keeps its presence, its text and its time; the clock stands. -/
structure ChangedOnly (touched : Path → Prop) (before after : Memory) : Prop where
  mem : ∀ path, after.file? path ≠ before.file? path → touched path
  clock : after.clock = before.clock

namespace ChangedOnly

variable {touched : Path → Prop} {memory between after : Memory} {path : Path}

theorem refl (memory : Memory) : memory.ChangedOnly touched memory := ⟨fun _ h => absurd rfl h, rfl⟩

theorem trans (h : memory.ChangedOnly touched between) (h' : between.ChangedOnly touched after) :
    memory.ChangedOnly touched after := by
  refine ⟨fun path hpath => ?_, h'.clock.trans h.clock⟩
  by_cases hlater : after.file? path = between.file? path
  · exact h.mem path fun hsame => hpath (hlater.trans hsame)
  · exact h'.mem path hlater

theorem mono {more : Path → Prop} (hmore : ∀ path, touched path → more path)
    (h : memory.ChangedOnly touched after) : memory.ChangedOnly more after :=
  ⟨fun path hpath => hmore path (h.mem path hpath), h.clock⟩

theorem put (hpath : touched path) (text : Text) (time : Time) :
    memory.ChangedOnly touched (memory.put path text time) := by
  refine ⟨fun other hother => ?_, clock_put⟩
  by_cases hsame : other = path
  · exact hsame ▸ hpath
  · rw [file?_put, if_neg hsame] at hother
    exact absurd rfl hother

end ChangedOnly

end Memory

namespace FileRequest

/-- Whether a request leaves the text of every file alone, and does not ask for it either. -/
def isLook : FileRequest → Bool
  | present _ | modified _ => true
  | read _ | write _ => false

end FileRequest

/-- Files in memory with a journal kept over them. -/
abbrev JournaledMemory := StateT Journal (StateM Memory)

/-- A step over journaled files is the plain step, and notes requests of the allowed kind only; it changes
    files of the given set only. -/
def Journaled {α : Type} (allowed : FileRequest → Prop) (touched : Path → Prop) (step : JournaledMemory α)
    (plain : StateM Memory α) : Prop :=
  ∀ journal memory, memory.ChangedOnly touched (plain memory).2 ∧
    ∃ asked : Journal, (∀ request ∈ asked, allowed request) ∧
      step journal memory = (((plain memory).1, journal ++ asked), (plain memory).2)

namespace Journaled

variable {α β : Type} {allowed : FileRequest → Prop} {touched : Path → Prop}

theorem pure (value : α) : Journaled allowed touched (Pure.pure value) (Pure.pure value) := by
  intro journal memory
  refine ⟨.refl memory, [], by simp, ?_⟩
  rw [List.append_nil]
  rfl

theorem bind {step : JournaledMemory α} {plain : StateM Memory α} {next : α → JournaledMemory β}
    {plainNext : α → StateM Memory β} (h : Journaled allowed touched step plain)
    (hnext : ∀ value, Journaled allowed touched (next value) (plainNext value)) :
    Journaled allowed touched (step >>= next) (plain >>= plainNext) := by
  intro journal memory
  obtain ⟨hchanged, asked, hasked, hstep⟩ := h journal memory
  obtain ⟨hlater, more, hmore, hvalue⟩ := hnext (plain memory).1 (journal ++ asked) (plain memory).2
  refine ⟨hchanged.trans hlater, asked ++ more, ?_, ?_⟩
  · intro request hrequest
    exact (List.mem_append.1 hrequest).elim (hasked request) (hmore request)
  · have hbind : (step >>= next) journal memory =
        next (step journal memory).1.1 (step journal memory).1.2 (step journal memory).2 := rfl
    rw [hbind, hstep, hvalue, List.append_assoc]
    rfl

/-- A step does no more than is allowed if more is allowed. -/
theorem mono {step : JournaledMemory α} {plain : StateM Memory α} {more : FileRequest → Prop}
    {further : Path → Prop} (hallowed : ∀ request, allowed request → more request)
    (htouched : ∀ path, touched path → further path) (h : Journaled allowed touched step plain) :
    Journaled more further step plain := by
  intro journal memory
  obtain ⟨hchanged, asked, hasked, hstep⟩ := h journal memory
  exact ⟨hchanged.mono htouched, asked, fun request hrequest => hallowed request (hasked request hrequest), hstep⟩

/-- After a step that does not fail comes the next one. -/
theorem bind_apply_ok {step : FilesT JournaledMemory α} {next : α → FilesT JournaledMemory β} {value : α}
    {journal noted : Journal} {memory between : Memory} (h : step journal memory = ((.ok value, noted), between)) :
    (step >>= next) journal memory = next value noted between := by
  change (fun result : (Except TranspileError α × Journal) × Memory =>
    (ExceptT.bindCont next result.1.1 : JournaledMemory (Except TranspileError β)) result.1.2 result.2)
      (step journal memory) = _
  rw [h]
  rfl

theorem bindExcept {step : FilesT JournaledMemory α} {plain : FilesT (StateM Memory) α}
    {next : α → FilesT JournaledMemory β} {plainNext : α → FilesT (StateM Memory) β}
    (h : Journaled allowed touched step plain)
    (hnext : ∀ value, Journaled allowed touched (next value) (plainNext value)) :
    Journaled allowed touched (step >>= next : FilesT JournaledMemory β) (plain >>= plainNext : FilesT _ β) := by
  refine @bind (Except TranspileError α) (Except TranspileError β) allowed touched step plain
    (ExceptT.bindCont next) (ExceptT.bindCont plainNext) h fun outcome => ?_
  cases outcome with
  | error error => exact pure (Except.error error)
  | ok value => exact hnext value

theorem map {step : JournaledMemory α} {plain : StateM Memory α} (f : α → β)
    (h : Journaled allowed touched step plain) : Journaled allowed touched (f <$> step) (f <$> plain) := by
  intro journal memory
  obtain ⟨hchanged, asked, hasked, hstep⟩ := h journal memory
  refine ⟨hchanged, asked, hasked, ?_⟩
  have hmap : (f <$> step) journal memory =
      ((f (step journal memory).1.1, (step journal memory).1.2), (step journal memory).2) := rfl
  rw [hmap, hstep]
  rfl

theorem io {step : JournaledMemory (Except IoError α)} {plain : StateM Memory (Except IoError α)}
    (h : Journaled allowed touched step plain) : Journaled allowed touched (FilesT.io step) (FilesT.io plain) :=
  map (Except.mapError TranspileError.io) h

section

variable {path : Path}

theorem noted {request : FileRequest} {step : JournaledMemory α} {operation : StateM Memory α}
    (hallowed : allowed request) (hchanged : ∀ memory : Memory, memory.ChangedOnly touched (operation memory).2)
    (h : step = (do Journal.note request; liftM operation)) : Journaled allowed touched step operation := by
  subst h
  intro journal memory
  exact ⟨hchanged memory, [request], by simpa using hallowed, rfl⟩

theorem isPresent (hallowed : allowed (.present path)) :
    Journaled allowed touched (Files.isPresent path) (Files.isPresent path) := noted hallowed .refl rfl

theorem readText (hallowed : allowed (.read path)) :
    Journaled allowed touched (Files.readText path) (Files.readText path) := noted hallowed .refl rfl

theorem modifiedAt (hallowed : allowed (.modified path)) :
    Journaled allowed touched (Files.modifiedAt path) (Files.modifiedAt path) := noted hallowed .refl rfl

theorem writeText (text : Text) (hallowed : allowed (.write path)) (hpath : touched path) :
    Journaled allowed touched (Files.writeText path text) (Files.writeText path text) := by
  refine noted hallowed (fun memory => ?_) rfl
  have hafter : ((Files.writeText path text : StateM Memory (Except IoError Unit)) memory).2 =
      ((FilesT.io (Files.writeText path text) : FilesT (StateM Memory) Unit) memory).2 := rfl
  rw [hafter, Memory.writeText_apply]
  unfold Memory.writeText
  cases memory.readOnly with
  | true => exact .refl memory
  | false => exact .put hpath text memory.clock

end

/-- Whether a template has to be compiled is found out by looking at files. -/
theorem cache_isStale (cache : Cache) (source : Path) (hlook : ∀ request, request.isLook = true → allowed request) :
    Journaled allowed touched (cache.isStale source : FilesT JournaledMemory Bool)
      (cache.isStale source : FilesT (StateM Memory) Bool) := by
  refine bindExcept (map Except.ok (isPresent (hlook _ rfl))) fun present => ?_
  cases present with
  | false => exact pure _
  | true =>
    refine bindExcept (io (modifiedAt (hlook _ rfl))) fun sourceTime => ?_
    exact bindExcept (io (modifiedAt (hlook _ rfl))) fun compiledTime => pure _

section

variable {compiler : Compiler JournaledMemory} {plain : Compiler (StateM Memory)} {source : Path}
  (hcache : compiler.cache = plain.cache)

include hcache

theorem isStale : Journaled (fun _ => True) touched (compiler.isStale source) (plain.isStale source) := by
  unfold Compiler.isStale
  rw [hcache]
  cases plain.cache with
  | none => exact pure _
  | some cache => exact cache_isStale cache source fun _ _ => trivial

variable (hrewrite : ∀ text, Journaled (fun _ => True) touched (compiler.rewrite text) (plain.rewrite text))
  (hplace : ∀ place, plain.compiledPath? source = some place → touched place)

include hrewrite hplace

theorem compile : Journaled (fun _ => True) touched (compiler.compile source) (plain.compile source) := by
  cases hplain : plain.cache with
  | none =>
    rw [Compiler.compile_of_none source (hcache.trans hplain), Compiler.compile_of_none source hplain]
    exact pure _
  | some cache =>
    have htouched : touched (cache.compiledPath source) := hplace _ (Compiler.compiledPath?_of_cache source hplain)
    rw [Compiler.compile_of_cache source (hcache.trans hplain), Compiler.compile_of_cache source hplain]
    refine bindExcept (io (readText trivial)) fun text => ?_
    refine bindExcept (hrewrite text) fun code => ?_
    exact bindExcept (io (writeText code trivial htouched)) fun _ => pure _

theorem compileIfStale :
    Journaled (fun _ => True) touched (compiler.compileIfStale source) (plain.compileIfStale source) := by
  cases hplain : plain.cache with
  | none =>
    rw [Compiler.compileIfStale_of_none source (hcache.trans hplain), Compiler.compileIfStale_of_none source hplain]
    exact pure _
  | some cache =>
    rw [Compiler.compileIfStale_of_cache source (hcache.trans hplain),
      Compiler.compileIfStale_of_cache source hplain]
    refine bindExcept (cache_isStale cache source fun _ _ => trivial) fun stale => ?_
    cases stale with
    | false => exact pure _
    | true => exact bindExcept (compile hcache hrewrite hplace) fun _ => pure _

theorem compiled :
    Journaled (fun _ => True) touched (compiler.compiled source) (plain.compiled source) := by
  cases hplain : plain.cache with
  | none =>
    rw [Compiler.compiled_of_none source (hcache.trans hplain), Compiler.compiled_of_none source hplain]
    exact pure _
  | some cache =>
    rw [Compiler.compiled_of_cache source (hcache.trans hplain), Compiler.compiled_of_cache source hplain]
    refine bind (compileIfStale hcache hrewrite hplace) fun outcome => ?_
    cases outcome <;> exact pure _

end

theorem firstPresent? (hlook : ∀ request, request.isLook = true → allowed request) (places : List Path) :
    Journaled allowed touched (Finder.firstPresent? places : JournaledMemory (Option Path))
      (Finder.firstPresent? places : StateM Memory (Option Path)) := by
  induction places with
  | nil => exact pure _
  | cons place places ih =>
    refine bind (isPresent (hlook _ rfl)) fun present => ?_
    cases present with
    | true => exact pure _
    | false => exact ih

theorem find (finder : Finder) (name : Text) (hlook : ∀ request, request.isLook = true → allowed request) :
    Journaled allowed touched (finder.find name : JournaledMemory (Except ViewError Path × Finder))
      (finder.find name : StateM Memory (Except ViewError Path × Finder)) := by
  unfold Finder.find
  dsimp only
  cases finder.found.find? (ViewName.normalize name) with
  | some path => exact pure _
  | none =>
    refine bind ?_ fun outcome => ?_
    · unfold Finder.lookUp
      cases finder.request (ViewName.normalize name) with
      | error error => exact pure _
      | ok request =>
        refine bind (firstPresent? hlook _) fun place => ?_
        cases place <;> exact pure _
    · cases outcome <;> exact pure _

end Journaled

end Template
