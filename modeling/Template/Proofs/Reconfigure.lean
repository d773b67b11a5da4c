import Template.Files.Memory
import Template.Proofs.Standard
import Template.Transpiler.Compile

/-! # Transpilers under change

A transpiler is changed in place: the search for comments is put in its place before the echo
passes are known to exist. A change that fails half-way still leaves all as it was, because the
searches of a transpiler always belong to its configuration and no single change asks for both
other comment markers and other echo passes.
-/

namespace Template

namespace Config

/-- Whatever one change does to a configuration: compiled files stay where they are, and either
    the comment markers stay or all that the echo passes are made from does. -/
structure OneChange (config other : Config) : Prop where
  cacheDir : other.cacheDir = config.cacheDir
  compiledExtension : other.compiledExtension = config.compiledExtension
  searches : other.commentTags = config.commentTags ∨
    ∀ limit, EchoPasses.build limit other = EchoPasses.build limit config

section

variable {config other : Config} {kind : TagKind} {tags : TagPair}

theorem oneChange_setTags (h : config.setTags kind tags = .ok other) : config.OneChange other := by
  cases kind with
  | comment =>
    cases h
    exact ⟨rfl, rfl, .inr fun _ => rfl⟩
  | rawEcho | escapedEcho | regularEcho =>
    cases h
    exact ⟨rfl, rfl, .inl rfl⟩
  | directive => cases h

theorem oneChange_echoFormat (config : Config) (format : Text) :
    config.OneChange { config with echoFormat := format } := ⟨rfl, rfl, .inl rfl⟩

end

end Config

namespace Transpiler

/-- The configuration has no fault, and all that is built from a configuration is built from this
    one. -/
structure Coherent (limit : Markers.Limit) (transpiler : Transpiler) : Prop where
  valid : transpiler.config.validate = .ok ()
  comments : Markers.build limit .comment transpiler.config.commentTags = .ok transpiler.comments
  echoes : EchoPasses.build limit transpiler.config = .ok transpiler.echoes
  cache : transpiler.cache =
    transpiler.config.cacheDir.map fun dir => ⟨dir, transpiler.config.compiledExtension⟩

section

variable {limit : Markers.Limit} {transpiler after : Transpiler} {config : Config} {kind : TagKind}
  {tags : TagPair} {format : Text} {outcome : Except TranspileError Unit} {error : TranspileError}

theorem coherent_create (h : create limit config = .ok transpiler) :
    transpiler.config = config ∧ transpiler.Coherent limit := by
  unfold create at h
  cases hvalid : config.validate with
  | error => rw [hvalid] at h; cases h
  | ok =>
    rw [hvalid] at h
    cases hcomments : Markers.build limit .comment config.commentTags with
    | error => rw [hcomments] at h; cases h
    | ok comments =>
      rw [hcomments] at h
      cases hechoes : EchoPasses.build limit config with
      | error => rw [hechoes] at h; cases h
      | ok echoes =>
        rw [hechoes] at h
        cases h
        exact ⟨rfl, hvalid, hcomments, hechoes, rfl⟩

namespace Edit

theorem reconfigure_run (limit : Markers.Limit) (config : Config) (transpiler : Transpiler) :
    (reconfigure limit config).run transpiler =
      match config.validate, Markers.build limit .comment config.commentTags,
        EchoPasses.build limit config with
      | .error error, _, _ => (.error error, transpiler)
      | .ok _, .error error, _ => (.error error, transpiler)
      | .ok _, .ok comments, .error error => (.error error, { transpiler with comments })
      | .ok _, .ok comments, .ok echoes => (.ok (), { transpiler with config, comments, echoes }) := by
  unfold reconfigure
  cases config.validate with
  | error => rfl
  | ok =>
    cases Markers.build limit .comment config.commentTags with
    | error => rfl
    | ok comments => cases EchoPasses.build limit config <;> rfl

theorem setTags_run (limit : Markers.Limit) (kind : TagKind) (tags : TagPair) (transpiler : Transpiler) :
    (setTags limit kind tags).run transpiler =
      match transpiler.config.setTags kind tags with
      | .error fault => (.error (.configuration fault), transpiler)
      | .ok config => (reconfigure limit config).run transpiler := by
  have hget : ∀ next : Transpiler → Edit, (get >>= next : Edit).run transpiler = (next transpiler).run transpiler :=
    fun _ => rfl
  unfold setTags
  rw [hget]
  cases transpiler.config.setTags kind tags <;> rfl

theorem setEchoFormat_run (limit : Markers.Limit) (format : Text) (transpiler : Transpiler) :
    (setEchoFormat limit format).run transpiler =
      (reconfigure limit { transpiler.config with echoFormat := format }).run transpiler := rfl

end Edit

/-- A coherent transpiler takes one change as a whole or not at all. -/
theorem Coherent.reconfigure (h : transpiler.Coherent limit) (hchange : transpiler.config.OneChange config)
    (hrun : (Edit.reconfigure limit config).run transpiler = (outcome, after)) :
    after.Coherent limit ∧ ∀ error, outcome = .error error → after = transpiler := by
  rw [Edit.reconfigure_run] at hrun
  cases hvalid : config.validate with
  | error =>
    rw [hvalid] at hrun
    cases hrun
    exact ⟨h, fun _ _ => rfl⟩
  | ok =>
    cases hcomments : Markers.build limit .comment config.commentTags with
    | error =>
      rw [hvalid, hcomments] at hrun
      cases hrun
      exact ⟨h, fun _ _ => rfl⟩
    | ok comments =>
      cases hechoes : EchoPasses.build limit config with
      | error =>
        rw [hvalid, hcomments, hechoes] at hrun
        cases hrun
        -- The new search for comments is in its place already; it is the old one.
        rcases hchange.searches with htags | hpasses
        · rw [htags, h.comments] at hcomments
          cases hcomments
          exact ⟨h, fun _ _ => rfl⟩
        · rw [hpasses, h.echoes] at hechoes
          cases hechoes
      | ok echoes =>
        rw [hvalid, hcomments, hechoes] at hrun
        cases hrun
        refine ⟨⟨hvalid, hcomments, hechoes, ?_⟩, fun _ hfailed => by cases hfailed⟩
        rw [h.cache, hchange.cacheDir, hchange.compiledExtension]

theorem Coherent.setTags (h : transpiler.Coherent limit)
    (hrun : (Edit.setTags limit kind tags).run transpiler = (outcome, after)) :
    after.Coherent limit ∧ ∀ error, outcome = .error error → after = transpiler := by
  rw [Edit.setTags_run] at hrun
  cases hconfig : transpiler.config.setTags kind tags with
  | error fault =>
    rw [hconfig] at hrun
    cases hrun
    exact ⟨h, fun _ _ => rfl⟩
  | ok config =>
    rw [hconfig] at hrun
    exact h.reconfigure (Config.oneChange_setTags hconfig) hrun

theorem Coherent.setEchoFormat (h : transpiler.Coherent limit)
    (hrun : (Edit.setEchoFormat limit format).run transpiler = (outcome, after)) :
    after.Coherent limit ∧ ∀ error, outcome = .error error → after = transpiler := by
  rw [Edit.setEchoFormat_run] at hrun
  exact h.reconfigure (Config.oneChange_echoFormat _ format) hrun

end

end Transpiler

/-- A transpiler and the files it works on. -/
structure Workshop where
  transpiler : Transpiler
  memory : Memory

/-- What can be asked of a transpiler. -/
inductive Request where
  | setTags (kind : TagKind) (tags : TagPair)
  | setEchoFormat (format : Text)
  | addDirective (name : Text) (handler : Handler)
  | eraseDirective (name : Text)
  | addHook (hook : Hook)
  | render (source : Text)
  | compile (source : Path)
  | compileIfStale (source : Path)

namespace Workshop

/-- What is there after a request, whether it succeeds or fails. -/
def step (limit : Markers.Limit) (workshop : Workshop) : Request → Workshop
  | .setTags kind tags =>
    { workshop with transpiler := ((Transpiler.Edit.setTags limit kind tags).run workshop.transpiler).2 }
  | .setEchoFormat format =>
    { workshop with transpiler := ((Transpiler.Edit.setEchoFormat limit format).run workshop.transpiler).2 }
  | .addDirective name handler =>
    { workshop with transpiler := workshop.transpiler.addDirective name handler }
  | .eraseDirective name => { workshop with transpiler := workshop.transpiler.eraseDirective name }
  | .addHook hook => { workshop with transpiler := workshop.transpiler.addHook hook }
  | .render _ => workshop
  | .compile source =>
    { workshop with
      memory := ((workshop.transpiler.compile source : FilesT (StateM Memory) (Option Path)) workshop.memory).2 }
  | .compileIfStale source =>
    { workshop with
      memory := ((workshop.transpiler.compileIfStale source : FilesT (StateM Memory) Bool) workshop.memory).2 }

def run (limit : Markers.Limit) (workshop : Workshop) (requests : List Request) : Workshop :=
  requests.foldl (step limit) workshop

/-- What requests lead to from a transpiler that was just set up. -/
inductive Reachable (limit : Markers.Limit) : Workshop → Prop where
  | create {config : Config} {transpiler : Transpiler} (memory : Memory)
      (hcreate : Transpiler.create limit config = .ok transpiler) : Reachable limit ⟨transpiler, memory⟩
  | step {workshop : Workshop} (request : Request) (hreachable : Reachable limit workshop) :
      Reachable limit (workshop.step limit request)

variable {limit : Markers.Limit} {workshop : Workshop}

theorem coherent_step (h : workshop.transpiler.Coherent limit) (request : Request) :
    (workshop.step limit request).transpiler.Coherent limit := by
  cases request with
  | setTags kind tags => exact (h.setTags rfl).1
  | setEchoFormat format => exact (h.setEchoFormat rfl).1
  | addDirective | eraseDirective | addHook => exact ⟨h.valid, h.comments, h.echoes, h.cache⟩
  | render | compile | compileIfStale => exact h

theorem Reachable.coherent (h : Reachable limit workshop) : workshop.transpiler.Coherent limit := by
  induction h with
  | create memory hcreate => exact (Transpiler.coherent_create hcreate).2
  | step request _ ih => exact coherent_step ih request

theorem Reachable.run (h : Reachable limit workshop) (requests : List Request) :
    Reachable limit (workshop.run limit requests) := by
  induction requests generalizing workshop with
  | nil => exact h
  | cons request requests ih => exact ih (h.step request)

/-- Whatever was asked of a transpiler, it works with what belongs to its configuration, which has
    no fault; and a change of its markers or its echo format that fails changes nothing of it. -/
theorem Reachable.coherent_and_atomic (h : Reachable limit workshop) :
    workshop.transpiler.Coherent limit ∧
      (∀ kind tags error after,
        (Transpiler.Edit.setTags limit kind tags).run workshop.transpiler = (.error error, after) →
          after = workshop.transpiler) ∧
      ∀ format error after,
        (Transpiler.Edit.setEchoFormat limit format).run workshop.transpiler = (.error error, after) →
          after = workshop.transpiler :=
  ⟨h.coherent, fun _ _ _ _ hrun => (h.coherent.setTags hrun).2 _ rfl,
    fun _ _ _ hrun => (h.coherent.setEchoFormat hrun).2 _ rfl⟩

/-- Markers of more than four characters cannot be searched for. -/
def shortMarkers : Markers.Limit := fun _ pair => pair.opening.length ≤ 4

/-- A transpiler after requests of which some failed: an echo format without a place for the
    expression, and markers that are too long. -/
def mixedWorkshop : Workshop :=
  run shortMarkers ⟨.standard .builtins, .empty⟩
    [.setTags .comment (.ofStrings "<#" "#>"), .setEchoFormat "e()".toList,
     .setTags .regularEcho (.ofStrings "[[[[[" "]]"), .eraseDirective "if".toList, .compile (.ofString "a")]

/-- Nothing is left of a change that fails when the search for comments is in its place. -/
theorem Reachable.coherent_and_atomic_mixedWorkshop :
    Reachable shortMarkers mixedWorkshop ∧ mixedWorkshop.transpiler.Coherent shortMarkers ∧
      mixedWorkshop.transpiler.config.commentTags = .ofStrings "<#" "#>" ∧
      (Transpiler.Edit.setTags shortMarkers .rawEcho (.ofStrings "<raw>" "</raw>")).run mixedWorkshop.transpiler =
        (.error (.pattern .rawEcho), mixedWorkshop.transpiler) ∧
      (Transpiler.Edit.setEchoFormat shortMarkers []).run mixedWorkshop.transpiler =
        (.error (.configuration (.noPlaceholder [])), mixedWorkshop.transpiler) := by
  have hstart : Transpiler.create shortMarkers .default = .ok (.standard .builtins) := rfl
  have hreachable : Reachable shortMarkers mixedWorkshop := (Reachable.create .empty hstart).run _
  obtain ⟨hcoherent, htags, hformat⟩ := hreachable.coherent_and_atomic
  have hraw : ((Transpiler.Edit.setTags shortMarkers .rawEcho (.ofStrings "<raw>" "</raw>")).run
      mixedWorkshop.transpiler).1 = .error (.pattern .rawEcho) := rfl
  have hblank : ((Transpiler.Edit.setEchoFormat shortMarkers []).run mixedWorkshop.transpiler).1 =
      .error (.configuration (.noPlaceholder [])) := rfl
  exact ⟨hreachable, hcoherent, rfl, Prod.ext hraw (htags _ _ _ _ (Prod.ext hraw rfl)),
    Prod.ext hblank (hformat _ _ _ (Prod.ext hblank rfl))⟩

end Workshop

end Template
