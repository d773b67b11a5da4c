import Template.CommandLine.Program
import Template.Proofs.CompileAgain
import Template.Proofs.StorePast

/-! # Commands on one template

What is printed for a template is what is stored for it, and both fail alike on a bad template. Unless it is
stored in the way of the settings file, the next command finds it where it says. A template that is there
is reported stale where the next run compiles it, and nowhere else.
-/

namespace Template

namespace Text

theorem suffix_join (separator t : Text) (ts : List Text) : t <:+ join separator (ts ++ [t]) := by
  induction ts with
  | nil => exact List.suffix_refl t
  | cons s ts ih =>
    rw [List.cons_append, join_of_ne_nil (List.concat_ne_nil t ts)]
    exact ih.trans (List.suffix_append _ _)

/-- An object ends with the value of its last member. -/
theorem suffix_jsonObject (members : List (Text × Text)) (name value : Text) :
    value ++ ['\n', '\x7d'] <:+ jsonObject (members ++ [(name, value)]) := by
  unfold jsonObject
  rw [List.map_append, List.map_cons, List.map_nil]
  generalize List.map _ members = rows
  obtain ⟨front, hfront⟩ := suffix_join [',', '\n'] ([' ', ' '] ++ json name ++ [':', ' '] ++ value) rows
  refine ⟨['\x7b', '\n'] ++ (front ++ ([' ', ' '] ++ json name ++ [':', ' '])), ?_⟩
  dsimp only
  rw [← hfront]
  simp only [List.append_assoc]

end Text

namespace Disk

variable {disk after : Disk} {path : Path}

/-- What has been stored at a path is read there. -/
theorem readText_of_store {text : Text} {time : Time}
    (h : disk.store path (.text text) time = (after, .ok ())) : after.readText path = .ok text := by
  obtain ⟨place, hlookUp⟩ := exists_lookUp_of_store h
  rw [readText, hlookUp]
  rfl

/-- A file can be stored at the path. -/
def Writable (disk : Disk) (path : Path) : Prop := (disk.store path (.text []) disk.clock).2 = .ok ()

instance (disk : Disk) (path : Path) : Decidable (disk.Writable path) :=
  inferInstanceAs (Decidable (_ = _))

/-- Whether a file can be stored does not depend on what it holds. -/
theorem Writable.exists_store (h : disk.Writable path) (contents : Contents) (time : Time) :
    ∃ after, disk.store path contents time = (after, .ok ()) := by
  unfold Writable at h
  unfold store at h ⊢
  dsimp only at h ⊢
  split at h
  case h_1 => cases h
  case h_2 =>
    split at h
    case h_1 => cases h
    case h_2 => exact ⟨_, rfl⟩

variable {transpiler : Transpiler} {cache : Cache} {source : Path}

/-- Of a template that is not there nothing can be told. -/
theorem readText_of_modifiedAt {error : IoError} (h : disk.modifiedAt source = .error error) :
    disk.readText source = .error error := by
  unfold modifiedAt at h
  unfold readText
  cases hlookUp : disk.lookUp source with
  | error error' =>
    rw [hlookUp] at h
    cases h
    rfl
  | ok found =>
    obtain ⟨place, node⟩ := found
    rw [hlookUp] at h
    cases node <;> cases h

theorem exists_isStale {time : Time} (h : disk.modifiedAt source = .ok time) (compiled : Path) :
    ∃ stale, disk.isStale source compiled = .ok stale := by
  unfold isStale
  split
  case isTrue hpresent =>
    unfold isPresent at hpresent
    obtain ⟨compiledTime, hcompiled⟩ : ∃ compiledTime, disk.modifiedAt compiled = .ok compiledTime := by
      cases hlookUp : disk.lookUp compiled with
      | error error =>
        rw [hlookUp] at hpresent
        cases hpresent
      | ok found =>
        obtain ⟨place, node⟩ := found
        cases node with
        | directory => exact ⟨_, modifiedAt_of_directory hlookUp⟩
        | file contents time => exact ⟨_, modifiedAt_of_file hlookUp⟩
    rw [h, hcompiled]
    exact ⟨_, rfl⟩
  case isFalse => exact ⟨true, rfl⟩

end Disk

namespace Status

/-- A report in JSON or as text. -/
def report (status : Status) (json : Bool) : Text := if json then status.json else status.text

/-- How a report ends. -/
def verdict (json stale : Bool) : Text :=
  if json then Text.jsonBool stale ++ "\n\x7d\n".toList
  else if stale then "⚠️  Stale, will be transpiled on next use\n".toList
  else "✅ Up to date\n".toList

theorem verdict_suffix (status : Status) (json : Bool) :
    verdict json status.stale <:+ status.report json := by
  cases json with
  | false => exact ⟨_, rfl⟩
  | true =>
    obtain ⟨members, hjson⟩ : ∃ members, status.json =
        Text.jsonObject (members ++ [("stale".toList, Text.jsonBool status.stale)]) ++ ['\n'] :=
      ⟨[_, _, _, _], rfl⟩
    obtain ⟨front, hfront⟩ := Text.suffix_jsonObject members "stale".toList (Text.jsonBool status.stale)
    exact ⟨front, by rw [report, if_pos rfl, hjson, ← hfront, List.append_assoc, List.append_assoc]; rfl⟩

/-- A report tells whether the template has to be compiled. -/
theorem stale_of_report {a b : Status} {json : Bool} (h : a.report json = b.report json) :
    a.stale = b.stale := by
  have ha := verdict_suffix a json
  have hb := verdict_suffix b json
  rw [h] at ha
  have hends := List.suffix_or_suffix_of_suffix ha hb
  have hverdict : ∀ json stale stale', verdict json stale <:+ verdict json stale' → stale = stale' := by
    decide
  rcases hends with hsuffix | hsuffix
  · exact hverdict _ _ _ hsuffix
  · exact (hverdict _ _ _ hsuffix).symm

end Status

namespace CommandLine

variable {limit : Markers.Limit} {options : Options} {config : ViewConfig} {disk : Disk}
  {transpiler : Transpiler} {cache : Cache} {file dir : Path} {json force : Bool}

/-- The settings that the options ask for on a disk. -/
def settingsOn (options : Options) (disk : Disk) : Except Failure ViewConfig :=
  ((configFor options : CommandT (StateM Disk) ViewConfig) disk).1

/-- What the program comes to on a disk when the options ask for a command, and the disk after
    it. -/
def resultOn (limit : Markers.Limit) (options : Options) (command : Command) (disk : Disk) :
    Result × Disk :=
  (execute limit { options with command } : StateM Disk Result) disk

theorem load_apply (path : Path) (disk : Disk) :
    (ViewConfig.load path : StateM Disk (Except ViewError ViewConfig)) disk =
      (match disk.readText path with
        | .ok text => ViewConfig.ofYaml text
        | .error error => .error (.io error), disk) := by
  unfold ViewConfig.load
  rw [Run.stateM_bind_apply]
  change (match disk.readText path with
      | .ok text => (pure (ViewConfig.ofYaml text) : StateM Disk (Except ViewError ViewConfig))
      | .error error => pure (.error (.io error))) disk = _
  cases disk.readText path <;> rfl

theorem loadConfig_apply (path : Path) (disk : Disk) :
    (loadConfig path : CommandT (StateM Disk) ViewConfig) disk =
      (((match disk.readText path with
        | .ok text => ViewConfig.ofYaml text
        | .error error => .error (.io error)).mapError Failure.view).mapError (Failure.during (.loadConfig path)),
        disk) := by
  have hstep : ∀ step : CommandT (StateM Disk) ViewConfig, CommandT.during (.loadConfig path) step disk =
      Prod.map (fun outcome => outcome.mapError (Failure.during (.loadConfig path))) id (step disk) := fun _ => rfl
  have hload : (liftM (ViewConfig.load path : StateM Disk (Except ViewError ViewConfig)) :
      CommandT (StateM Disk) (Except ViewError ViewConfig)) disk =
        (.ok ((ViewConfig.load path : StateM Disk (Except ViewError ViewConfig)) disk).1,
          ((ViewConfig.load path : StateM Disk (Except ViewError ViewConfig)) disk).2) := rfl
  unfold loadConfig
  rw [hstep, Run.bind_apply_ok hload, load_apply]
  rfl

theorem withCacheDir_snd {first : CommandT (StateM Disk) ViewConfig} (options : Options) {disk : Disk}
    (hfirst : (first disk).2 = disk) :
    ((first >>= fun config => match options.cacheDir with
      | some dir => pure (config.withCacheDir dir)
      | none => pure config) disk).2 = disk := by
  rw [Run.bind_apply]
  cases hstep : first disk with
  | mk outcome after =>
    rw [hstep] at hfirst
    cases hfirst
    cases outcome with
    | error failure => rfl
    | ok config => cases options.cacheDir <;> rfl

/-- The settings are read without a change of the disk. -/
theorem configFor_snd (options : Options) (disk : Disk) :
    ((configFor options : CommandT (StateM Disk) ViewConfig) disk).2 = disk := by
  unfold configFor
  cases options.config with
  | some path => exact withCacheDir_snd options (congrArg Prod.snd (loadConfig_apply path disk))
  | none =>
    have hpresent : (liftM (Files.isPresent defaultConfigFile : StateM Disk Bool) :
        CommandT (StateM Disk) Bool) disk = (.ok (disk.isPresent defaultConfigFile), disk) := rfl
    dsimp only
    rw [Run.bind_apply_ok hpresent]
    cases disk.isPresent defaultConfigFile with
    | true => exact withCacheDir_snd options (congrArg Prod.snd (loadConfig_apply defaultConfigFile disk))
    | false => exact withCacheDir_snd options rfl

/-- The file that settings are read from: the named one, or the usual one if it is there. -/
def settingsFile (options : Options) : Path := options.config.getD defaultConfigFile

/-- Settings with the directory for compiled files that the options name. -/
def withOptions (options : Options) (config : ViewConfig) : ViewConfig :=
  match options.cacheDir with
  | some dir => config.withCacheDir dir
  | none => config

/-- The settings are those of the settings file, with the directory that the options name. -/
theorem settingsOn_eq (options : Options) (disk : Disk) :
    settingsOn options disk =
      (if options.config.isSome || disk.isPresent defaultConfigFile then
        ((match disk.readText (settingsFile options) with
          | .ok text => ViewConfig.ofYaml text
          | .error error => .error (.io error)).mapError Failure.view).mapError
            (Failure.during (.loadConfig (settingsFile options)))
      else .ok .default).map (withOptions options) := by
  have hwith : ∀ (first : CommandT (StateM Disk) ViewConfig) (outcome : Except Failure ViewConfig),
      first disk = (outcome, disk) → ((first >>= fun config => match options.cacheDir with
        | some dir => pure (config.withCacheDir dir)
        | none => pure config) disk).1 = outcome.map (withOptions options) := by
    intro first outcome hfirst
    rw [Run.bind_apply, hfirst]
    unfold withOptions
    cases outcome with
    | error failure => rfl
    | ok config => cases options.cacheDir <;> rfl
  unfold settingsOn configFor settingsFile
  cases options.config with
  | some path => exact hwith _ _ (loadConfig_apply path disk)
  | none =>
    have hpresent : (liftM (Files.isPresent defaultConfigFile : StateM Disk Bool) :
        CommandT (StateM Disk) Bool) disk = (.ok (disk.isPresent defaultConfigFile), disk) := rfl
    dsimp only
    rw [Run.bind_apply_ok hpresent]
    cases disk.isPresent defaultConfigFile with
    | true => exact hwith _ _ (loadConfig_apply defaultConfigFile disk)
    | false => exact hwith _ _ rfl

/-- The settings file has a place: it could be read there, or it is a name in the working directory. -/
theorem locate_settingsFile (htree : disk.IsTree) (hconfig : settingsOn options disk = .ok config) :
    disk.locate (settingsFile options) = .ok (disk.placeOf (settingsFile options)) := by
  cases hnamed : options.config with
  | none =>
    have hfile : settingsFile options = defaultConfigFile := by rw [settingsFile, hnamed]; rfl
    have hsegments : defaultConfigFile.segments = ["plaze.yaml".toList] := by decide +kernel
    have hfits : Disk.Fits defaultConfigFile := ⟨by decide +kernel, by decide +kernel, by decide +kernel⟩
    rw [hfile, Disk.locate_of_fits hfits, Disk.placeOf, hsegments, Disk.follow, List.foldlM_cons,
      Disk.step_of_directory (htree.start _)]
    rfl
  | some path =>
    rw [settingsOn_eq, hnamed] at hconfig
    cases hlocate : disk.locate (settingsFile options) with
    | ok place => rw [(Disk.locate_eq_ok hlocate).2]
    | error error =>
      have htext : disk.readText (settingsFile options) = .error error := by
        rw [Disk.readText, Disk.lookUp_of_error hlocate]
        rfl
      rw [htext] at hconfig
      cases hconfig

/-- What is stored past the settings file leaves the settings as they are. -/
theorem settingsOn_of_keeps {after : Disk} (htree : disk.IsTree) (hconfig : settingsOn options disk = .ok config)
    (hkeeps : disk.Keeps (disk.placeOf (settingsFile options)) after) : settingsOn options after = .ok config := by
  have hlookUp := hkeeps.lookUp (locate_settingsFile htree hconfig)
  have htext : after.readText (settingsFile options) = disk.readText (settingsFile options) := by
    rw [Disk.readText, Disk.readText, hlookUp]
  have hpresent : options.config = none → after.isPresent defaultConfigFile = disk.isPresent defaultConfigFile := by
    intro hnone
    rw [settingsFile, hnone] at hlookUp
    exact congrArg Except.isOk hlookUp
  rw [← hconfig, settingsOn_eq, settingsOn_eq, htext]
  cases hnamed : options.config with
  | none => rw [hpresent hnamed]
  | some path => rfl

/-- A command is carried out under the settings of the options. -/
theorem resultOn_of_settings {command : Command} (step : ViewConfig → CommandT (StateM Disk) Text)
    (hconfig : settingsOn options disk = .ok config)
    (hstep : (execute limit { options with command } : StateM Disk Result) = (do
      match ← (configFor options : CommandT (StateM Disk) ViewConfig).run with
      | .error failure => pure (.ofFailure failure)
      | .ok config => Result.ofOutcome <$> (step config).run)) :
    resultOn limit options command disk =
      (Result.ofOutcome (step config disk).1, (step config disk).2) := by
  have hsettings : (configFor options : CommandT (StateM Disk) ViewConfig) disk = (.ok config, disk) :=
    Prod.ext hconfig (configFor_snd options disk)
  rw [resultOn, hstep, Run.stateM_bind_apply]
  change (match ((configFor options : CommandT (StateM Disk) ViewConfig) disk).1 with
    | .error failure => (pure (.ofFailure failure) : StateM Disk Result)
    | .ok config => Result.ofOutcome <$> (step config).run)
      ((configFor options : CommandT (StateM Disk) ViewConfig) disk).2 = _
  rw [hsettings]
  rfl

/-- What printing a template comes to. -/
def printed (transpiler : Transpiler) (file : Path) (disk : Disk) : Except Failure Text :=
  match disk.readText file with
  | .error error => .error (.during (.read file) (.io error))
  | .ok source => (transpiler.render source).mapError fun error =>
      .during (.transpile file) (.transpile error)

theorem resultOn_print (hconfig : settingsOn options disk = .ok config) :
    resultOn limit options (.print file) disk =
      (.ofOutcome (match Transpiler.create limit config.transpiler with
        | .error error => .error (.during .setUp (.transpile error))
        | .ok transpiler => printed transpiler file disk), disk) := by
  have hsetUp : (transpilerFor limit config : CommandT (StateM Disk) Transpiler) disk =
      (((Transpiler.create limit config.transpiler).mapError Failure.transpile).mapError
        (Failure.during .setUp), disk) := rfl
  have hread : (CommandT.during (.read file) (CommandT.io (Files.readText file)) : CommandT (StateM Disk) Text) disk =
      (((disk.readText file).mapError Failure.io).mapError (Failure.during (.read file)), disk) := rfl
  rw [resultOn_of_settings (fun config => print limit config file) hconfig rfl]
  rw [print, Run.bind_apply, hsetUp]
  cases Transpiler.create limit config.transpiler with
  | error error => rfl
  | ok transpiler =>
    dsimp only [Except.mapError]
    rw [Run.bind_apply, hread, printed]
    cases disk.readText file with
    | error error => rfl
    | ok source =>
      change (Result.ofOutcome (((transpiler.render source).mapError Failure.transpile).mapError
        (Failure.during (.transpile file))), disk) = _
      dsimp only
      cases transpiler.render source <;> rfl

/-- What compiling a template comes to as an answer. -/
def transpiled (quiet : Bool) (cache : Cache) (file : Path) : Except TranspileError Bool → Except Failure Text
  | .error error => .error (.during (.transpile file) (.transpile error))
  | .ok written => .ok (
    if quiet then []
    else if written then
      "✅ ".toList ++ file.text ++ " → ".toList ++ (cache.compiledPath file).text ++ ['\n']
    else
      "✔️  ".toList ++ file.text ++ " is up to date (".toList ++ (cache.compiledPath file).text ++ ")\n".toList)

theorem resultOn_transpile (hconfig : settingsOn options disk = .ok config) :
    resultOn limit options (.transpile file force) disk =
      match compilerOf limit config with
      | .error failure => (.ofFailure failure, disk)
      | .ok (transpiler, cache) =>
        Prod.map (fun outcome => .ofOutcome (transpiled options.quiet cache file outcome)) id
          ((transpiler.refresh force file : FilesT (StateM Disk) Bool) disk) := by
  rw [resultOn_of_settings (fun config => transpile limit config options.quiet file force) hconfig rfl]
  rw [transpile, Run.bind_apply, compilerFor_apply]
  cases compilerOf limit config with
  | error failure => rfl
  | ok compiler =>
    obtain ⟨transpiler, cache⟩ := compiler
    have hrefresh : (CommandT.during (.transpile file) (CommandT.transpiling (transpiler.refresh force file)) :
        CommandT (StateM Disk) Bool) disk =
        Prod.map (fun outcome => (outcome.mapError Failure.transpile).mapError (Failure.during (.transpile file)))
          id ((transpiler.refresh force file : FilesT (StateM Disk) Bool) disk) := rfl
    dsimp only
    rw [Run.bind_apply, hrefresh]
    cases (transpiler.refresh force file : FilesT (StateM Disk) Bool) disk with
    | mk outcome after =>
      cases outcome with
      | error error => rfl
      | ok written =>
        dsimp only [Prod.map, Except.mapError, transpiled]
        cases options.quiet <;> cases written <;> rfl

theorem resultOn_path (hconfig : settingsOn options disk = .ok config) :
    resultOn limit options (.path file) disk =
      (.ofOutcome ((compilerOf limit config).map fun (_, cache) =>
        (cache.compiledPath file).text ++ ['\n']), disk) := by
  rw [resultOn_of_settings (fun config => path limit config file) hconfig rfl]
  rw [path, Run.bind_apply, compilerFor_apply]
  cases compilerOf limit config <;> rfl

/-- The state of a template. -/
def stateOf (cache : Cache) (file : Path) (disk : Disk) : Except Failure Status :=
  match disk.modifiedAt file with
  | .error error => .error (.during (.readMetadata file) (.io error))
  | .ok sourceTime =>
    match disk.isStale file (cache.compiledPath file) with
    | .error error => .error (.transpile (.io error))
    | .ok stale => .ok ⟨file, sourceTime, cache.compiledPath file,
        (disk.modifiedAt (cache.compiledPath file)).toOption, stale⟩

theorem statusOf_apply (limit : Markers.Limit) (config : ViewConfig) (file : Path) (disk : Disk) :
    (statusOf limit config file : CommandT (StateM Disk) Status) disk =
      (match compilerOf limit config with
        | .error failure => .error failure
        | .ok (_, cache) => stateOf cache file disk, disk) := by
  have hmodified : (CommandT.during (.readMetadata file) (CommandT.io (Files.modifiedAt file)) :
      CommandT (StateM Disk) Time) disk =
      (((disk.modifiedAt file).mapError Failure.io).mapError (Failure.during (.readMetadata file)), disk) := rfl
  have hcompiled : ∀ compiled, (liftM (Files.modifiedAt compiled : StateM Disk (Except IoError Time)) :
      CommandT (StateM Disk) (Except IoError Time)) disk = (.ok (disk.modifiedAt compiled), disk) := fun _ => rfl
  rw [statusOf, Run.bind_apply, compilerFor_apply]
  cases hcompiler : compilerOf limit config with
  | error failure => rfl
  | ok compiler =>
    obtain ⟨transpiler, cache⟩ := compiler
    dsimp only
    rw [Run.bind_apply, hmodified, stateOf]
    cases disk.modifiedAt file with
    | error error => rfl
    | ok sourceTime =>
      have hstale : (CommandT.transpiling (transpiler.isStale file) : CommandT (StateM Disk) Bool) disk =
          (((disk.isStale file (cache.compiledPath file)).mapError TranspileError.io).mapError Failure.transpile,
            disk) := by
        change ((transpiler.isStale file : FilesT (StateM Disk) Bool) disk).map
          (fun outcome => outcome.mapError Failure.transpile) id = _
        rw [Transpiler.isStale_of_cache file (compilerOf_eq_ok hcompiler).2, Disk.isStale_apply]
        rfl
      dsimp only [Except.mapError]
      rw [Run.bind_apply_ok (hcompiled _), Run.bind_apply, hstale]
      cases disk.isStale file (cache.compiledPath file) <;> rfl

theorem resultOn_status (hconfig : settingsOn options disk = .ok config) :
    resultOn limit options (.status file json) disk =
      (.ofOutcome (match compilerOf limit config with
        | .error failure => .error failure
        | .ok (_, cache) => (stateOf cache file disk).map fun status => status.report json), disk) := by
  rw [resultOn_of_settings (fun config => status limit config file json) hconfig rfl]
  rw [status, Run.bind_apply, statusOf_apply]
  cases compilerOf limit config with
  | error failure => rfl
  | ok compiler =>
    obtain ⟨transpiler, cache⟩ := compiler
    dsimp only
    cases stateOf cache file disk <;> rfl

/-- The place for compiled forms in the settings. -/
def cacheOf (config : ViewConfig) : Option Cache :=
  config.transpiler.cacheDir.map fun dir => ⟨dir, config.transpiler.compiledExtension⟩

/-- With a place for compiled forms, only the transpiler can be missing. -/
theorem compilerOf_of_cacheOf (hcache : cacheOf config = some cache) :
    compilerOf limit config = match Transpiler.create limit config.transpiler with
      | .error error => .error (.during .setUp (.transpile error))
      | .ok transpiler => .ok (transpiler, cache) := by
  unfold compilerOf
  cases hcreate : Transpiler.create limit config.transpiler with
  | error error => rfl
  | ok transpiler =>
    obtain ⟨hconfig, hcoherent⟩ := Transpiler.coherent_create hcreate
    have hplace : transpiler.cache = some cache := by
      rw [hcoherent.cache, hconfig]
      exact hcache
    dsimp only
    rw [hplace]

theorem exitCode_ne_success (failure : Failure) : failure.exitCode ≠ .success := by
  have htranspile : ∀ error, exitCodeOf error ≠ .success := by
    intro error
    unfold exitCodeOf
    cases error <;> simp [TranspileError.isTemplateError]
  induction failure with
  | transpile error => exact htranspile error
  | view error =>
    cases error with
    | transpile error => exact htranspile error
    | _ => nofun
  | during task cause ih => exact ih
  | _ => nofun

/-- A run of `status` tells of a template whether it has to be compiled. -/
def Reports (json stale : Bool) (result : Result) : Prop :=
  ∃ status : Status, status.stale = stale ∧ result = .ofOutput (status.report json)

/-- A run compiles a template: its code is stored, or it has none because it cannot be read or
    rewritten. -/
inductive Compiles (limit : Markers.Limit) (config : ViewConfig) (compiled file : Path) (disk : Disk)
    (next : Result × Disk) : Prop
  | writes {transpiler : Transpiler} {code : Text}
      (hcreate : Transpiler.create limit config.transpiler = .ok transpiler)
      (hcode : disk.codeOf transpiler file = .ok code)
      (hwritten : disk.refresh transpiler file = (.ok true, next.2))
      (hstored : disk.store compiled (.text code) disk.clock = (next.2, .ok ()))
      (hexit : next.1.exit = .success)
  | fails {transpiler : Transpiler} {error : TranspileError}
      (hcreate : Transpiler.create limit config.transpiler = .ok transpiler)
      (hcode : disk.codeOf transpiler file = .error error)
      (hnext : next = (.ofFailure (.during (.transpile file) (.transpile error)), disk))

theorem not_reports_failure {stale : Bool} (failure : Failure) :
    ¬ Reports json stale (.ofFailure failure) := by
  rintro ⟨status, -, hresult⟩
  exact exitCode_ne_success failure (congrArg Result.exit hresult)

theorem reports_iff {status : Status} {stale : Bool} :
    Reports json stale (.ofOutput (status.report json)) ↔ status.stale = stale := by
  constructor
  · rintro ⟨other, rfl, hresult⟩
    exact Status.stale_of_report (congrArg Result.output hresult)
  · exact fun hstale => ⟨status, hstale, rfl⟩

theorem printed_eq (transpiler : Transpiler) (file : Path) (disk : Disk) :
    (∃ error, printed transpiler file disk = .error (.during (.read file) (.io error)) ∧
        disk.codeOf transpiler file = .error (.io error)) ∨
      (∃ error, printed transpiler file disk = .error (.during (.transpile file) (.transpile error)) ∧
        disk.codeOf transpiler file = .error error) ∨
      ∃ code, printed transpiler file disk = .ok code ∧ disk.codeOf transpiler file = .ok code := by
  unfold printed Disk.codeOf
  cases disk.readText file with
  | error error => exact .inl ⟨error, rfl, rfl⟩
  | ok source =>
    change _ ∨ (∃ error, (transpiler.render source).mapError _ = _ ∧ transpiler.render source = _) ∨
      ∃ code, (transpiler.render source).mapError _ = _ ∧ transpiler.render source = _
    cases transpiler.render source with
    | error error => exact .inr (.inl ⟨error, rfl, rfl⟩)
    | ok code => exact .inr (.inr ⟨code, rfl, rfl⟩)

theorem refresh_always (hcache : transpiler.cache = some cache) (file : Path) (disk : Disk) :
    (transpiler.refresh true file : FilesT (StateM Disk) Bool) disk =
      match disk.codeOf transpiler file with
      | .error error => (.error error, disk)
      | .ok code =>
        match disk.store (cache.compiledPath file) (.text code) disk.clock with
        | (after, .error error) => (.error (.io error), after)
        | (after, .ok ()) => (.ok true, after) := by
  rw [Transpiler.refresh, if_pos rfl, Run.map_apply, Disk.compile_apply hcache]
  cases disk.codeOf transpiler file with
  | error error => rfl
  | ok code =>
    dsimp only
    cases disk.store (cache.compiledPath file) (.text code) disk.clock with
    | mk after outcome => cases outcome <;> rfl

theorem resultOn_transpile_false (hconfig : settingsOn options disk = .ok config)
    (hcompiler : compilerOf limit config = .ok (transpiler, cache)) :
    resultOn limit options (.transpile file false) disk =
      (.ofOutcome (transpiled options.quiet cache file (disk.refresh transpiler file).1),
        (disk.refresh transpiler file).2) := by
  rw [resultOn_transpile hconfig, hcompiler]
  rfl

section

variable (hconfig : settingsOn options disk = .ok config) (hcompiler : compilerOf limit config = .ok (transpiler, cache))
  (hwritable : disk.Writable (cache.compiledPath file))

include hconfig hcompiler hwritable

/-- What is printed is what is stored, and what keeps the one keeps the other. -/
theorem print_agrees :
    let print := resultOn limit options (.print file) disk
    let forced := resultOn limit options (.transpile file true) disk
    (print.1.exit = .success → forced.1.exit = .success ∧
        forced.2.readText (cache.compiledPath file) = .ok print.1.output) ∧
      (print.1.exit = .template → forced = (print.1, disk)) := by
  obtain ⟨hcreate, hplace⟩ := compilerOf_eq_ok hcompiler
  dsimp only
  rw [resultOn_print hconfig, resultOn_transpile hconfig, hcreate, hcompiler]
  dsimp only
  rw [refresh_always hplace]
  obtain ⟨error, hprinted, hcode⟩ | ⟨error, hprinted, hcode⟩ | ⟨code, hprinted, hcode⟩ :=
    printed_eq transpiler file disk
  · rw [hprinted, hcode]
    exact ⟨nofun, nofun⟩
  · rw [hprinted, hcode]
    exact ⟨fun hexit => absurd hexit (exitCode_ne_success _), fun _ => rfl⟩
  · obtain ⟨after, hstore⟩ := hwritable.exists_store (.text code) disk.clock
    rw [hprinted, hcode]
    dsimp only
    rw [hstore]
    exact ⟨fun _ => ⟨rfl, Disk.readText_of_store hstore⟩, nofun⟩

omit hwritable

/-- A forced run puts nothing where the path of the compiled form leads past. -/
theorem keeps_forced {place : Location} (hpast : disk.LeadsPast (cache.compiledPath file) place) :
    disk.Keeps place (resultOn limit options (.transpile file true) disk).2 := by
  obtain ⟨hcreate, hplace⟩ := compilerOf_eq_ok hcompiler
  have hname := Cache.isSegment_artifactName (Transpiler.cache_of_create hcreate hplace).2.2.1 file
  rw [resultOn_transpile hconfig, hcompiler]
  dsimp only
  rw [refresh_always hplace]
  cases disk.codeOf transpiler file with
  | error error => exact .refl place disk
  | ok code =>
    have hkeeps := Disk.keeps_store hname (Cache.artifactName_ne_cons file []) hpast (.text code) disk.clock
    rw [← Cache.compiledPath_eq] at hkeeps
    dsimp only
    cases hstore : disk.store (cache.compiledPath file) (.text code) disk.clock with
    | mk after outcome =>
      rw [hstore] at hkeeps
      cases outcome <;> exact hkeeps

/-- The report on a template that is there tells what decides whether it is compiled. -/
theorem exists_report {time : Time} (htime : disk.modifiedAt file = .ok time) (json : Bool) :
    ∃ stale, disk.isStale file (cache.compiledPath file) = .ok stale ∧
      ∀ told, Reports json told (resultOn limit options (.status file json) disk).1 ↔ stale = told := by
  obtain ⟨stale, hstale⟩ := Disk.exists_isStale htime (cache.compiledPath file)
  refine ⟨stale, hstale, fun told => ?_⟩
  rw [resultOn_status hconfig, hcompiler]
  dsimp only
  rw [stateOf, htime, hstale]
  exact reports_iff

theorem status_of_missing {error : IoError} (hmissing : disk.modifiedAt file = .error error) (json : Bool) :
    (resultOn limit options (.status file json) disk).1 =
      .ofFailure (.during (.readMetadata file) (.io error)) := by
  rw [resultOn_status hconfig, hcompiler]
  dsimp only
  rw [stateOf, hmissing]
  rfl

include hwritable

/-- A template that has to be compiled is, or it has no code. -/
theorem compiles_of_stale (hstale : disk.isStale file (cache.compiledPath file) = .ok true) :
    Compiles limit config (cache.compiledPath file) file disk
      (resultOn limit options (.transpile file false) disk) := by
  obtain ⟨hcreate, hplace⟩ := compilerOf_eq_ok hcompiler
  rw [resultOn_transpile_false hconfig hcompiler]
  have hrefresh := Disk.refresh_apply hplace file disk
  rw [hstale] at hrefresh
  cases hcode : disk.codeOf transpiler file with
  | error error =>
    rw [hcode] at hrefresh
    rw [hrefresh]
    exact .fails hcreate hcode rfl
  | ok code =>
    obtain ⟨after, hstore⟩ := hwritable.exists_store (.text code) disk.clock
    rw [hcode] at hrefresh
    dsimp only at hrefresh
    rw [hstore] at hrefresh
    exact .writes hcreate hcode (by rw [hrefresh]) (by rw [hstore, hrefresh]) (by rw [hrefresh]; rfl)

omit hwritable

/-- A template that need not be compiled is left alone. -/
theorem transpile_of_fresh (hstale : disk.isStale file (cache.compiledPath file) = .ok false) :
    (resultOn limit options (.transpile file false) disk).1.exit = .success ∧
      (resultOn limit options (.transpile file false) disk).2 = disk ∧
      ¬ Compiles limit config (cache.compiledPath file) file disk
        (resultOn limit options (.transpile file false) disk) := by
  obtain ⟨hcreate, hplace⟩ := compilerOf_eq_ok hcompiler
  rw [resultOn_transpile_false hconfig hcompiler]
  have hrefresh := Disk.refresh_apply hplace file disk
  rw [hstale] at hrefresh
  rw [hrefresh]
  refine ⟨rfl, rfl, fun hcompiles => ?_⟩
  cases hcompiles with
  | writes hcreate' _ hwritten =>
    rw [hcreate] at hcreate'
    cases hcreate'
    rw [hrefresh] at hwritten
    cases hwritten
  | fails _ _ hnext => exact exitCode_ne_success _ (congrArg (Result.exit ∘ Prod.fst) hnext).symm

/-- A template that is not there has no state and is not compiled. -/
theorem transpile_of_missing {error : IoError} (hmissing : disk.modifiedAt file = .error error) :
    (resultOn limit options (.transpile file false) disk).1.exit ≠ .success ∧
      (resultOn limit options (.transpile file false) disk).2 = disk := by
  obtain ⟨hcreate, hplace⟩ := compilerOf_eq_ok hcompiler
  rw [resultOn_transpile_false hconfig hcompiler]
  have hcode : disk.codeOf transpiler file = .error (.io error) := by
    rw [Disk.codeOf, Disk.readText_of_modifiedAt hmissing]
    rfl
  have hrefresh : disk.refresh transpiler file = (.error (.io error), disk) := by
    rw [Disk.refresh_apply hplace, Disk.isStale, hcode, hmissing]
    cases disk.isPresent (cache.compiledPath file) <;> rfl
  rw [hrefresh]
  exact ⟨exitCode_ne_success _, rfl⟩

end

/-- What is printed for a template is what is stored for it, and a bad template fails both commands
    alike. The path is printed where it is stored, unless it leads through the settings file and so
    changes the settings. A template that is there is reported as one that has to be compiled exactly if
    the next run compiles it, or finds that it has no code; and if it is reported up to date, that run
    leaves it alone. Of a template that is not there nothing is reported, and it is not compiled. -/
theorem commands_agree (json : Bool) (hconfig : settingsOn options disk = .ok config)
    (hcache : cacheOf config = some cache) (hwritable : disk.Writable (cache.compiledPath file)) :
    let compiled := cache.compiledPath file
    let print := resultOn limit options (.print file) disk
    let forced := resultOn limit options (.transpile file true) disk
    let status := resultOn limit options (.status file json) disk
    let next := resultOn limit options (.transpile file false) disk
    (print.1.exit = .success → forced.1.exit = .success ∧
        forced.2.readText compiled = .ok print.1.output ∧
        (disk.IsTree → disk.LeadsPast compiled (disk.placeOf (settingsFile options)) →
          resultOn limit options (.path file) forced.2 = (.ofOutput (compiled.text ++ ['\n']), forced.2))) ∧
      (print.1.exit = .template → forced = (print.1, disk)) ∧
      (∀ time, disk.modifiedAt file = .ok time →
        (Reports json true status.1 ↔ Compiles limit config compiled file disk next)) ∧
      (Reports json false status.1 → next.1.exit = .success ∧ next.2 = disk) ∧
      ∀ error, disk.modifiedAt file = .error error →
        status.1.exit ≠ .success ∧ next.1.exit ≠ .success ∧ next.2 = disk := by
  dsimp only
  cases hcreate : Transpiler.create limit config.transpiler with
  | error error =>
    have hcompiler : compilerOf limit config = .error (.during .setUp (.transpile error)) := by
      rw [compilerOf_of_cacheOf hcache, hcreate]
    rw [resultOn_print hconfig, resultOn_transpile hconfig, resultOn_transpile hconfig,
      resultOn_status hconfig, hcompiler, hcreate]
    refine ⟨fun hexit => absurd hexit (exitCode_ne_success _), fun _ => rfl,
      fun _ _ => ⟨fun hreports => absurd hreports (not_reports_failure _), fun hcompiles => ?_⟩,
      fun hreports => absurd hreports (not_reports_failure _),
      fun _ _ => ⟨exitCode_ne_success _, exitCode_ne_success _, rfl⟩⟩
    cases hcompiles with
    | writes hcreate' | fails hcreate' =>
      rw [hcreate] at hcreate'
      cases hcreate'
  | ok transpiler =>
    have hcompiler : compilerOf limit config = .ok (transpiler, cache) := by
      rw [compilerOf_of_cacheOf hcache, hcreate]
    obtain ⟨hprint, hbad⟩ := print_agrees hconfig hcompiler hwritable
    refine ⟨fun hexit => ?_, hbad, fun time htime => ?_, fun hreports => ?_, fun error hmissing => ?_⟩
    · obtain ⟨hforced, hread⟩ := hprint hexit
      refine ⟨hforced, hread, fun htree hpast => ?_⟩
      rw [resultOn_path (settingsOn_of_keeps htree hconfig (keeps_forced hconfig hcompiler hpast)), hcompiler]
      rfl
    · obtain ⟨stale, hstale, hreports⟩ := exists_report hconfig hcompiler htime json
      rw [hreports]
      cases stale with
      | true => exact iff_of_true rfl (compiles_of_stale hconfig hcompiler hwritable hstale)
      | false =>
        exact iff_of_false Bool.false_ne_true (transpile_of_fresh hconfig hcompiler hstale).2.2
    · cases htime : disk.modifiedAt file with
      | error error =>
        rw [status_of_missing hconfig hcompiler htime] at hreports
        exact absurd hreports (not_reports_failure _)
      | ok time =>
        obtain ⟨stale, hstale, htold⟩ := exists_report hconfig hcompiler htime json
        rw [(htold false).1 hreports] at hstale
        obtain ⟨hexit, hsame, -⟩ := transpile_of_fresh hconfig hcompiler hstale
        exact ⟨hexit, hsame⟩
    · obtain ⟨hexit, hsame⟩ := transpile_of_missing hconfig hcompiler hmissing
      rw [status_of_missing hconfig hcompiler hmissing]
      exact ⟨exitCode_ne_success _, hexit, hsame⟩

/-- Options with a directory for compiled files. -/
def optionsWith (cacheDir : String) : Options :=
  ⟨none, some (.ofString cacheDir), false, .print (.ofString "views/home.php")⟩

theorem commands_agree_homeDisk :
    let options := optionsWith "cache"
    let file : Path := .ofString "views/home.php"
    let compiled : Path :=
      .ofString "cache/6ee92c072dd1b1b6f6d55bc2832f6d74ce07cb7e6d1a783a3897fc8b929fdf27.php"
    let forced := resultOn Markers.standardLimit options (.transpile file true) homeDisk
    homeDisk.Writable compiled ∧ homeDisk.IsTree ∧
      homeDisk.LeadsPast compiled (homeDisk.placeOf (settingsFile options)) ∧
      forced.2.readText compiled = .ok "<?php echo e($title); ?>".toList ∧
      resultOn Markers.standardLimit options (.path file) forced.2 =
        (.ofOutput "cache/6ee92c072dd1b1b6f6d55bc2832f6d74ce07cb7e6d1a783a3897fc8b929fdf27.php\n".toList, forced.2) ∧
      Reports true true (resultOn Markers.standardLimit options (.status file true) homeDisk).1 ∧
      Compiles Markers.standardLimit (ViewConfig.default.withCacheDir (.ofString "cache")) compiled file homeDisk
        (resultOn Markers.standardLimit options (.transpile file false) homeDisk) := by
  intro options file compiled forced
  have hconfig : settingsOn options homeDisk = .ok (ViewConfig.default.withCacheDir (.ofString "cache")) := by
    decide +kernel
  have htree : homeDisk.IsTree := isTree_diskWith _
  have hwritable : homeDisk.Writable compiled := by decide +kernel
  have hpast : homeDisk.LeadsPast compiled (homeDisk.placeOf (settingsFile options)) := by decide +kernel
  have hcompiled : (⟨.ofString "cache", "php".toList⟩ : Cache).compiledPath file = compiled := by decide +kernel
  have hprint : (resultOn Markers.standardLimit options (.print file) homeDisk).1 =
      .ofOutput "<?php echo e($title); ?>".toList := by decide +kernel
  have hstatus : Reports true true (resultOn Markers.standardLimit options (.status file true) homeDisk).1 :=
    ⟨⟨file, 1, compiled, none, true⟩, rfl, by decide +kernel⟩
  have hagree := @commands_agree Markers.standardLimit options _ homeDisk
    ⟨.ofString "cache", "php".toList⟩ file true hconfig rfl (hcompiled ▸ hwritable)
  rw [hcompiled] at hagree
  obtain ⟨hforced, -, hreports, -⟩ := hagree
  rw [hprint] at hforced
  obtain ⟨-, hstored, hpath⟩ := hforced rfl
  refine ⟨hwritable, htree, hpast, hstored, (hpath htree hpast).trans ?_, hstatus,
    (hreports 1 (by decide +kernel)).1 hstatus⟩
  exact congrArg (Result.ofOutput ·, forced.2) (by decide +kernel)

/-- Of a template that is not there nothing is reported, and yet the next run fails while reading it. And
    where compiled forms are to go to a directory with the name of the usual settings file, the forced run
    makes that directory, and the path is asked for under settings that cannot be read. -/
theorem commands_agree_ne :
    (let options := optionsWith "cache"
      let file : Path := .ofString "views/none.php"
      let compiled : Path :=
        .ofString "cache/ac61ff21586bdb685b84b2a2e6e5876020beb91266530f49f811e219b2575615.php"
      homeDisk.Writable compiled ∧
        (∀ stale, ¬ Reports true stale (resultOn Markers.standardLimit options (.status file true) homeDisk).1) ∧
        Compiles Markers.standardLimit (ViewConfig.default.withCacheDir (.ofString "cache")) compiled file homeDisk
          (resultOn Markers.standardLimit options (.transpile file false) homeDisk)) ∧
    let options := optionsWith "plaze.yaml"
    let file : Path := .ofString "views/home.php"
    let compiled : Path :=
      .ofString "plaze.yaml/6ee92c072dd1b1b6f6d55bc2832f6d74ce07cb7e6d1a783a3897fc8b929fdf27.php"
    let forced := resultOn Markers.standardLimit options (.transpile file true) homeDisk
    homeDisk.Writable compiled ∧ homeDisk.IsTree ∧
      (resultOn Markers.standardLimit options (.print file) homeDisk).1.exit = .success ∧ forced.1.exit = .success ∧
      (resultOn Markers.standardLimit options (.path file) forced.2).1 =
        .ofFailure (.during (.loadConfig defaultConfigFile) (.view (.io .isADirectory))) := by
  refine ⟨?_, ?_⟩
  · intro options file compiled
    have hstatus : (resultOn Markers.standardLimit options (.status file true) homeDisk).1 =
        .ofFailure (.during (.readMetadata file) (.io .notFound)) := by decide +kernel
    have hmissing : homeDisk.readText file = .error .notFound := by decide +kernel
    obtain ⟨transpiler, hcreate⟩ : ∃ transpiler, Transpiler.create Markers.standardLimit
        (ViewConfig.default.withCacheDir (.ofString "cache")).transpiler = .ok transpiler := ⟨_, rfl⟩
    have hcode : homeDisk.codeOf transpiler file = .error (.io .notFound) := by
      rw [Disk.codeOf, hmissing]
      rfl
    exact ⟨by decide +kernel, fun stale => hstatus ▸ not_reports_failure _,
      .fails hcreate hcode (by decide +kernel)⟩
  · intro options file compiled forced
    exact ⟨by decide +kernel, isTree_diskWith _, by decide +kernel, by decide +kernel, by decide +kernel⟩

end CommandLine

end Template
