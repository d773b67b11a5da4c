import Template.Files.Memory
import Template.Proofs.Run
import Template.View.Engine

/-! # Compiling over files in memory

What each operation answers and what it leaves in the store, read off the files in it. The only
change an operation makes is to store the compiled form of a template at the template's place
in the cache.
-/

namespace Template

namespace Memory

variable {memory : Memory} {path other : Path} {text : Text} {time : Time}

theorem file?_put : (memory.put path text time).file? other =
    if other = path then some ⟨text, time⟩ else memory.file? other :=
  memory.files.find?_insert path other ⟨text, time⟩

theorem file?_remove : (memory.remove path).file? other =
    if other = path then none else memory.file? other :=
  memory.files.find?_erase path other

theorem writeText_apply (path : Path) (text : Text) (memory : Memory) :
    (FilesT.io (Files.writeText path text) : FilesT (StateM Memory) Unit) memory =
      match memory.writeText path text with
      | .error error => (.error (.io error), memory)
      | .ok after => (.ok (), after) := by
  have hio : (FilesT.io (Files.writeText path text) : FilesT (StateM Memory) Unit) memory =
      ((Files.writeText path text : StateM Memory (Except IoError Unit)) memory).map
        (Except.mapError TranspileError.io) id := rfl
  have hget : (get : StateM Memory Memory) memory = (memory, memory) := rfl
  rw [hio]
  simp only [Files.writeText, Run.stateM_bind_apply, hget]
  cases memory.writeText path text <;> rfl

@[simp] theorem clock_put : (memory.put path text time).clock = memory.clock := rfl

end Memory

/-- A store after a transpiler was at work on a template: as before, or with the compiled form of
    the template's text put at its place. -/
def Memory.MayStore (transpiler : Transpiler) (cache : Cache) (source : Path) (before after : Memory) :
    Prop :=
  after = before ∨ ∃ file code, before.file? source = some file ∧
    transpiler.render file.text = .ok code ∧
      after = before.put (cache.compiledPath source) code before.clock

section

variable {transpiler : Transpiler} {cache : Cache} {memory after : Memory} {source : Path}

/-- The compiled form is in order if the template is there and strictly older. -/
theorem Cache.isStale_apply (cache : Cache) (source : Path) (memory : Memory) :
    (cache.isStale source : FilesT (StateM Memory) Bool) memory =
      (match memory.file? (cache.compiledPath source), memory.file? source with
        | none, _ => .ok true
        | some _, none => .error (.io (.noSuchFile source))
        | some artifact, some file => .ok (decide (artifact.time ≤ file.time)), memory) := by
  have hpresent : (liftM (Files.isPresent (cache.compiledPath source) : StateM Memory Bool) :
      FilesT (StateM Memory) Bool) memory =
        (.ok (memory.file? (cache.compiledPath source)).isSome, memory) := rfl
  have hmodified : ∀ path, (FilesT.io (Files.modifiedAt path) : FilesT (StateM Memory) Time) memory =
      ((memory.modifiedAt path).mapError .io, memory) := fun _ => rfl
  unfold Cache.isStale
  refine (Run.bind_apply_ok hpresent).trans ?_
  cases hartifact : memory.file? (cache.compiledPath source) with
  | none => rfl
  | some artifact =>
    have htime : (memory.modifiedAt (cache.compiledPath source)).mapError TranspileError.io =
        .ok artifact.time := by
      rw [Memory.modifiedAt, hartifact]
      rfl
    cases hfile : memory.file? source with
    | none =>
      refine Run.bind_apply_error ((hmodified source).trans ?_)
      rw [Memory.modifiedAt, hfile]
      rfl
    | some file =>
      have hsource : (memory.modifiedAt source).mapError TranspileError.io = .ok file.time := by
        rw [Memory.modifiedAt, hfile]
        rfl
      refine (Run.bind_apply_ok ((hmodified source).trans (by rw [hsource]))).trans ?_
      refine (Run.bind_apply_ok ((hmodified _).trans (by rw [htime]))).trans ?_
      rfl

section

variable {compiler : Compiler (StateM Memory)} (hcache : compiler.cache = some cache) (source : Path) (memory : Memory)

include hcache

/-- The template is read, rewritten and stored; the first of these that fails decides. What the rewriting
    does to the files stays done. -/
theorem Compiler.compile_apply :
    compiler.compile source memory =
      match memory.file? source with
      | none => (.error (.io (.noSuchFile source)), memory)
      | some file =>
        match compiler.rewrite file.text memory with
        | (.error error, between) => (.error error, between)
        | (.ok code, between) =>
          match between.writeText (cache.compiledPath source) code with
          | .error error => (.error (.io error), between)
          | .ok after => (.ok (some (cache.compiledPath source)), after) := by
  have hread : (FilesT.io (Files.readText source) : FilesT (StateM Memory) Text) memory =
      ((memory.readText source).mapError .io, memory) := rfl
  rw [compile_of_cache source hcache]
  cases hfile : memory.file? source with
  | none =>
    refine Run.bind_apply_error (hread.trans ?_)
    rw [Memory.readText, hfile]
    rfl
  | some file =>
    have htext : (memory.readText source).mapError TranspileError.io = .ok file.text := by
      rw [Memory.readText, hfile]
      rfl
    refine (Run.bind_apply_ok (hread.trans (by rw [htext]))).trans ?_
    refine (Run.bind_apply _ _ _).trans ?_
    dsimp only
    cases compiler.rewrite file.text memory with
    | mk outcome between =>
      cases outcome with
      | error error => rfl
      | ok code =>
        refine (Run.bind_apply _ _ _).trans ?_
        rw [Memory.writeText_apply]
        dsimp only
        cases between.writeText (cache.compiledPath source) code <;> rfl

theorem Compiler.compileIfStale_apply :
    compiler.compileIfStale source memory =
      match ((cache.isStale source : FilesT (StateM Memory) Bool) memory).1 with
      | .error error => (.error error, memory)
      | .ok false => (.ok false, memory)
      | .ok true =>
        match compiler.compile source memory with
        | (.error error, after) => (.error error, after)
        | (.ok place, after) => (.ok place.isSome, after) := by
  rw [compileIfStale_of_cache source hcache]
  refine (Run.bind_apply _ _ _).trans ?_
  rw [Cache.isStale_apply]
  dsimp only
  split
  case _ herror =>
    rw [Prod.mk.injEq] at herror
    rw [herror.1, herror.2]
  case _ stale _ hstale =>
    rw [Prod.mk.injEq] at hstale
    rw [hstale.1, hstale.2]
    cases stale with
    | false => rfl
    | true =>
      rw [if_pos rfl, Run.bind_apply]
      dsimp only
      cases compiler.compile source _ with
      | mk outcome stored => cases outcome <;> rfl

theorem Compiler.compiled_apply :
    compiler.compiled source memory =
      match compiler.compileIfStale source memory with
      | (.error error, after) => (.error (.transpile error), after)
      | (.ok _, after) => (.ok (cache.compiledPath source), after) := by
  rw [compiled_of_cache source hcache]
  simp only [Run.stateM_bind_apply, ExceptT.run]
  cases compiler.compileIfStale source memory with
  | mk outcome after => cases outcome <;> rfl

end

/-- A transpiler's rewriting leaves the files alone. -/
theorem Transpiler.compile_apply (hcache : transpiler.cache = some cache) (source : Path)
    (memory : Memory) :
    (transpiler.compile source : FilesT (StateM Memory) (Option Path)) memory =
      match memory.file? source with
      | none => (.error (.io (.noSuchFile source)), memory)
      | some file =>
        match transpiler.render file.text with
        | .error error => (.error error, memory)
        | .ok code =>
          match memory.writeText (cache.compiledPath source) code with
          | .error error => (.error (.io error), memory)
          | .ok after => (.ok (some (cache.compiledPath source)), after) := by
  refine (@Compiler.compile_apply cache transpiler.compiler hcache source memory).trans ?_
  cases memory.file? source with
  | none => rfl
  | some file =>
    have hrewrite : (transpiler.compiler : Compiler (StateM Memory)).rewrite file.text memory =
        (transpiler.render file.text, memory) := rfl
    dsimp only
    rw [hrewrite]
    cases transpiler.render file.text <;> rfl

theorem Transpiler.compile_mayStore (hcache : transpiler.cache = some cache) (source : Path)
    (memory : Memory) :
    memory.MayStore transpiler cache source
      ((transpiler.compile source : FilesT (StateM Memory) (Option Path)) memory).2 := by
  rw [Transpiler.compile_apply hcache]
  cases hfile : memory.file? source with
  | none => exact .inl rfl
  | some file =>
    dsimp only
    cases hrender : transpiler.render file.text with
    | error error => exact .inl rfl
    | ok code =>
      unfold Memory.writeText
      cases memory.readOnly with
      | true => exact .inl rfl
      | false => exact .inr ⟨file, code, hfile, hrender, rfl⟩

theorem Transpiler.compile_eq_ok (hcache : transpiler.cache = some cache) {place : Option Path}
    (h : (transpiler.compile source : FilesT (StateM Memory) (Option Path)) memory = (.ok place, after)) :
    ∃ file code, memory.file? source = some file ∧ transpiler.render file.text = .ok code ∧
      after = memory.put (cache.compiledPath source) code memory.clock := by
  rw [Transpiler.compile_apply hcache] at h
  cases hfile : memory.file? source with
  | none =>
    rw [hfile] at h
    cases h
  | some file =>
    rw [hfile] at h
    dsimp only at h
    cases hrender : transpiler.render file.text with
    | error error =>
      rw [hrender] at h
      cases h
    | ok code =>
      rw [hrender] at h
      dsimp only [Memory.writeText] at h
      cases hclosed : memory.readOnly with
      | true =>
        rw [hclosed] at h
        cases h
      | false =>
        rw [hclosed] at h
        cases h
        exact ⟨file, code, rfl, hrender, rfl⟩

theorem Transpiler.compileIfStale_apply (hcache : transpiler.cache = some cache) (source : Path)
    (memory : Memory) :
    (transpiler.compileIfStale source : FilesT (StateM Memory) Bool) memory =
      match ((cache.isStale source : FilesT (StateM Memory) Bool) memory).1 with
      | .error error => (.error error, memory)
      | .ok false => (.ok false, memory)
      | .ok true =>
        match (transpiler.compile source : FilesT (StateM Memory) (Option Path)) memory with
        | (.error error, after) => (.error error, after)
        | (.ok place, after) => (.ok place.isSome, after) :=
  @Compiler.compileIfStale_apply cache transpiler.compiler hcache source memory

theorem Transpiler.compileIfStale_mayStore (hcache : transpiler.cache = some cache) (source : Path)
    (memory : Memory) :
    memory.MayStore transpiler cache source
      ((transpiler.compileIfStale source : FilesT (StateM Memory) Bool) memory).2 := by
  have hcompile := Transpiler.compile_mayStore hcache source memory
  rw [Transpiler.compileIfStale_apply hcache]
  split
  · exact .inl rfl
  · exact .inl rfl
  · split <;> simp_all

/-- A compiled form is found in order, or has been stored just now. -/
theorem Transpiler.compileIfStale_eq_ok (hcache : transpiler.cache = some cache) {written : Bool}
    (h : (transpiler.compileIfStale source : FilesT (StateM Memory) Bool) memory = (.ok written, after)) :
    (after = memory ∧ ((cache.isStale source : FilesT (StateM Memory) Bool) memory).1 = .ok false) ∨
      ∃ file code, memory.file? source = some file ∧ transpiler.render file.text = .ok code ∧
        after = memory.put (cache.compiledPath source) code memory.clock := by
  rw [Transpiler.compileIfStale_apply hcache] at h
  split at h
  · cases h
  case _ hstale =>
    cases h
    exact .inl ⟨rfl, hstale⟩
  case _ =>
    split at h
    · cases h
    case _ place stored hcompile =>
      cases h
      exact .inr (Transpiler.compile_eq_ok hcache hcompile)

end

namespace Engine

theorem compiled_apply (engine : Engine) {cache : Cache}
    (hcache : engine.transpiler.cache = some cache) (source : Path) (memory : Memory) :
    (engine.compiled source : StateM Memory (Except ViewError Path)) memory =
      match (engine.transpiler.compileIfStale source : FilesT (StateM Memory) Bool) memory with
      | (.error error, after) => (.error (.transpile error), after)
      | (.ok _, after) => (.ok (cache.compiledPath source), after) :=
  @Compiler.compiled_apply cache engine.transpiler.compiler hcache source memory

end Engine

namespace Finder

theorem firstPresent?_memory (places : List Path) (memory : Memory) :
    ((firstPresent? places : StateM Memory (Option Path)) memory).2 = memory := by
  induction places with
  | nil => rfl
  | cons place places ih =>
    change ((if (memory.file? place).isSome then pure (some place)
      else firstPresent? places : StateM Memory (Option Path)) memory).2 = memory
    split
    · rfl
    · exact ih

theorem lookUp_memory (finder : Finder) (name : Text) (memory : Memory) :
    ((finder.lookUp name : StateM Memory (Except ViewError Path)) memory).2 = memory := by
  unfold Finder.lookUp
  cases finder.request name with
  | error error => rfl
  | ok request =>
    obtain ⟨view, paths⟩ := request
    have hplaces := firstPresent?_memory (finder.candidates view paths) memory
    dsimp only
    rw [Run.stateM_bind_apply]
    cases ((firstPresent? (finder.candidates view paths) : StateM Memory (Option Path)) memory).1 <;>
      exact hplaces

/-- Looking for a view leaves the store as it is. -/
theorem find_memory (finder : Finder) (name : Text) (memory : Memory) :
    ((finder.find name : StateM Memory (Except ViewError Path × Finder)) memory).2 = memory := by
  unfold Finder.find
  cases finder.found.find? (ViewName.normalize name) with
  | some path => rfl
  | none =>
    have hlookUp := finder.lookUp_memory (ViewName.normalize name) memory
    dsimp only
    rw [Run.stateM_bind_apply]
    cases ((finder.lookUp (ViewName.normalize name) : StateM Memory (Except ViewError Path)) memory).1 <;>
      exact hlookUp

end Finder

theorem Compiler.resolve_apply (compiler : Compiler (StateM Memory)) (finder : Finder) (name : Text)
    (memory : Memory) :
    compiler.resolve finder name memory =
      match ((finder.find name : StateM Memory (Except ViewError Path × Finder)) memory).1 with
      | (.error error, finder) => ((.error error, finder), memory)
      | (.ok view, finder) =>
        match compiler.compiled view memory with
        | (outcome, after) => ((outcome, finder), after) := by
  have hfind := finder.find_memory name memory
  unfold resolve
  rw [Run.stateM_bind_apply, hfind]
  generalize ((finder.find name : StateM Memory (Except ViewError Path × Finder)) memory).1 = found
  obtain ⟨outcome, finder⟩ := found
  cases outcome <;> rfl

namespace Engine

theorem resolve_apply (engine : Engine) (name : Text) (memory : Memory) :
    (engine.resolve name : StateM Memory (Except ViewError Path × Engine)) memory =
      match ((engine.finder.find name : StateM Memory (Except ViewError Path × Finder)) memory).1 with
      | (.error error, finder) => ((.error error, { engine with finder }), memory)
      | (.ok view, finder) =>
        match ({ engine with finder }.compiled view : StateM Memory (Except ViewError Path)) memory with
        | (outcome, after) => ((outcome, { engine with finder }), after) := by
  unfold Engine.resolve
  rw [Run.stateM_bind_apply, Compiler.resolve_apply]
  cases ((engine.finder.find name : StateM Memory (Except ViewError Path × Finder)) memory).1 with
  | mk outcome finder => cases outcome <;> rfl

end Engine

end Template
