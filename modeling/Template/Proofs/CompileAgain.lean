import Template.CommandLine.Commands
import Template.Proofs.FolderRefresh
import Template.Proofs.Reconfigure
import Template.Proofs.StoreGrowth

/-! # Compiling a folder once more

Compiled forms that are kept apart from the templates do not disturb the walk that makes them, so each
template is taken once, and settled. A second run finds the same templates and settles them again: none
is compiled, those that failed fail alike, and nothing is written.
-/

namespace Template

namespace Summary

/-- The summary with what came of more templates. -/
def addAll (summary : Summary) (results : List (Path × Except TranspileError Bool)) : Summary :=
  results.foldl (fun summary result => summary.add result.1 result.2) summary

/-- What comes of a second run: what was compiled is up to date. -/
def again (summary : Summary) : Summary := ⟨0, summary.compiled + summary.upToDate, summary.failed⟩

/-- How many templates a summary is about. -/
def count (summary : Summary) : Nat := summary.compiled + summary.upToDate + summary.failed.length

theorem again_add (summary : Summary) (source : Path) (outcome : Except TranspileError Bool) :
    summary.again.add source (outcome.map fun _ => false) = (summary.add source outcome).again := by
  cases outcome with
  | error error => rfl
  | ok written =>
    cases written with
    | true =>
      unfold again
      simp only [add, Except.map, mk.injEq, true_and, and_true]
      omega
    | false => rfl

theorem again_addAll (summary : Summary) (results : List (Path × Except TranspileError Bool)) :
    summary.again.addAll (results.map fun result => (result.1, result.2.map fun _ => false)) =
      (summary.addAll results).again := by
  induction results generalizing summary with
  | nil => rfl
  | cons result results ih =>
    unfold addAll at ih ⊢
    rw [List.map_cons, List.foldl_cons, List.foldl_cons, again_add, ih]

theorem count_addAll (summary : Summary) (results : List (Path × Except TranspileError Bool)) :
    (summary.addAll results).count = summary.count + results.length := by
  induction results generalizing summary with
  | nil => rfl
  | cons result results ih =>
    have hadd : (summary.add result.1 result.2).count = summary.count + 1 := by
      obtain ⟨source, outcome⟩ := result
      unfold count
      cases outcome with
      | error error => simp [add, Nat.add_assoc]
      | ok written => cases written <;> simp only [add] <;> omega
    unfold addAll at ih ⊢
    rw [List.foldl_cons, ih, hadd, List.length_cons]
    omega

end Summary

namespace Transpiler

/-- Compiles a template if it has to be, and notes what came of it. -/
def refreshInto (transpiler : Transpiler) (summary : Summary) (source : Path) : StateM Disk Summary := do
  pure (summary.add source (← (transpiler.refresh false source : FilesT (StateM Disk) Bool).run))

theorem refreshInto_apply (transpiler : Transpiler) (summary : Summary) (source : Path) (disk : Disk) :
    transpiler.refreshInto summary source disk =
      (summary.add source (disk.refresh transpiler source).1, (disk.refresh transpiler source).2) := rfl

theorem compileFolder_eq_visit (transpiler : Transpiler) (extensions : List Text) (folder : Path) :
    (transpiler.compileFolder extensions false folder : StateM Disk Summary) =
      Folders.visit (hasExtension extensions) transpiler.refreshInto folderDepth folder .empty := rfl

end Transpiler

namespace Disk

variable {disk now last : Disk} {cache : Cache} {transpiler : Transpiler} {source other folder : Path}
  {wanted : Text → Bool} {depth : Nat} {outcome : Except TranspileError Bool} {sources : List Path}

/-- The templates have digests of their own. -/
def DigestsApart (sources : List Path) : Prop :=
  ∀ source ∈ sources, ∀ other ∈ sources, source.digest = other.digest → source = other

instance (sources : List Path) : Decidable (DigestsApart sources) :=
  inferInstanceAs (Decidable (∀ source ∈ sources, ∀ other ∈ sources, source.digest = other.digest → source = other))

section

variable (h : disk.Separates cache wanted folder) (hcache : transpiler.cache = some cache)
  (hapart : DigestsApart (disk.templates wanted depth folder))

include h hcache hapart

/-- A settled template stays so when another one is compiled, or the same once more. -/
theorem Settled.refresh (hsettled : disk.Settled transpiler cache source outcome now)
    (hnow : GrowsAt (disk.IsArtifact cache) disk now) (hsource : source ∈ disk.templates wanted depth folder)
    (hother : other ∈ disk.templates wanted depth folder) :
    disk.Settled transpiler cache source outcome (now.refresh transpiler other).2 := by
  by_cases hname : cache.artifactName source = cache.artifactName other
  case pos =>
    have hsame := hapart source hsource other hother (Cache.digest_eq_of_artifactName hname)
    rw [← hsame, hsettled now hnow (.refl hnow.tree) rfl]
    exact hsettled
  case neg =>
    obtain ⟨hgrows, hkept⟩ := h.refresh_grows hnow hcache other
    intro last hlast hlater hnode
    exact hsettled last hlast (hgrows.toGrows.trans hlater) (hnode.trans (hkept source hname))

/-- Compiling templates one after another settles each of them. -/
theorem exists_results (hsources : ∀ source ∈ sources, source ∈ disk.templates wanted depth folder)
    (hnow : GrowsAt (disk.IsArtifact cache) disk now) :
    ∃ results after, results.map Prod.fst = sources ∧ GrowsAt (disk.IsArtifact cache) now after ∧
      (∀ summary, (sources.foldlM transpiler.refreshInto summary : StateM Disk Summary) now =
        (summary.addAll results, after)) ∧
      (∀ result ∈ results, disk.Settled transpiler cache result.1 result.2 after) ∧
      ∀ source ∈ disk.templates wanted depth folder, ∀ outcome,
        disk.Settled transpiler cache source outcome now → disk.Settled transpiler cache source outcome after := by
  induction sources generalizing now with
  | nil => exact ⟨[], now, rfl, .refl hnow.tree, fun _ => rfl, nofun, fun _ _ _ hsettled => hsettled⟩
  | cons source sources ih =>
    rw [List.forall_mem_cons] at hsources
    obtain ⟨hgrows, -⟩ := h.refresh_grows hnow hcache source
    have hsettled := h.refresh_settled hcache hsources.1 hnow
    have hstays : ∀ other ∈ disk.templates wanted depth folder, ∀ outcome,
        disk.Settled transpiler cache other outcome now →
          disk.Settled transpiler cache other outcome (now.refresh transpiler source).2 :=
      fun other hother outcome hsettled => hsettled.refresh h hcache hapart hnow hother hsources.1
    cases hrefresh : now.refresh transpiler source with
    | mk outcome next =>
      rw [hrefresh] at hgrows hsettled hstays
      obtain ⟨results, after, hresults, hafter, hrun, hall, hkept⟩ := ih hsources.2 (hnow.trans hgrows)
      refine ⟨(source, outcome) :: results, after, ?_, hgrows.trans hafter, fun summary => ?_, ?_, ?_⟩
      · rw [List.map_cons, hresults]
      · rw [List.foldlM_cons, Run.stateM_bind_apply, Transpiler.refreshInto_apply, hrefresh, hrun]
        rfl
      · rw [List.forall_mem_cons]
        exact ⟨hkept source hsources.1 outcome hsettled, hall⟩
      · exact fun other hother outcome hbefore => hkept other hother outcome (hstays other hother outcome hbefore)

end

/-- Where each template is settled, compiling them all again writes nothing. -/
theorem foldlM_of_settled {results : List (Path × Except TranspileError Bool)}
    (hsettled : ∀ result ∈ results,
      last.refresh transpiler result.1 = (result.2.map fun _ => false, last)) (summary : Summary) :
    ((results.map Prod.fst).foldlM transpiler.refreshInto summary : StateM Disk Summary) last =
      (summary.addAll (results.map fun result => (result.1, result.2.map fun _ => false)), last) := by
  induction results generalizing summary with
  | nil => rfl
  | cons result results ih =>
    rw [List.forall_mem_cons] at hsettled
    rw [List.map_cons, List.foldlM_cons, Run.stateM_bind_apply, Transpiler.refreshInto_apply, hsettled.1, ih hsettled.2]
    rfl

theorem growsAt_clock {written : Location → Prop} {later : Time} (htree : disk.IsTree) (hlater : disk.clock ≤ later) :
    GrowsAt written disk { disk with clock := later } where
  workdir := rfl
  clock := hlater
  tree := ⟨htree.nodup, htree.root, htree.workdir, htree.around⟩
  directory hplace := hplace
  file hplace := ⟨_, _, hplace⟩
  others _ _ := .inl rfl

/-- A run over a folder takes each of its templates, and a later one finds nothing left to do. -/
theorem Separates.compileFolder_again {extensions : List Text}
    (h : disk.Separates cache (hasExtension extensions) folder) (hcache : transpiler.cache = some cache)
    (hapart : DigestsApart (disk.templates (hasExtension extensions) folderDepth folder)) (later : Time) :
    ∃ summary after, (transpiler.compileFolder extensions false folder : StateM Disk Summary) disk = (summary, after) ∧
      Grows disk after ∧ summary.count = (disk.templates (hasExtension extensions) folderDepth folder).length ∧
      (after.clock ≤ later →
        after.templates (hasExtension extensions) folderDepth folder =
            disk.templates (hasExtension extensions) folderDepth folder ∧
          (transpiler.compileFolder extensions false folder : StateM Disk Summary) { after with clock := later } =
            (summary.again, { after with clock := later })) := by
  have hstep : ∀ summary source now, GrowsAt (disk.IsArtifact cache) disk now →
      GrowsAt (disk.IsArtifact cache) now (transpiler.refreshInto summary source now).2 :=
    fun _ source _ hnow => (h.refresh_grows hnow hcache source).1
  have hwalk : ∀ now, GrowsAt (disk.IsArtifact cache) disk now →
      Folders.visit (hasExtension extensions) transpiler.refreshInto folderDepth folder .empty now =
        (disk.templates (hasExtension extensions) folderDepth folder).foldlM transpiler.refreshInto .empty now :=
    fun _ hnow => visit_eq_foldlM hstep h.tree h.unwanted_artifact h.reached hnow folderDepth .empty
  have hrefl : GrowsAt (disk.IsArtifact cache) disk disk := .refl h.tree
  obtain ⟨results, after, hresults, hafter, hrun, hsettled, -⟩ :=
    exists_results h hcache hapart (fun _ hmem => hmem) hrefl
  refine ⟨Summary.empty.addAll results, after, ?_, hafter.toGrows, ?_, fun hlater => ⟨?_, ?_⟩⟩
  · rw [Transpiler.compileFolder_eq_visit, hwalk disk hrefl, hrun]
  · rw [Summary.count_addAll, ← hresults, List.length_map]
    exact Nat.zero_add _
  · exact templates_eq h.tree h.unwanted_artifact h.reached hafter folderDepth
  · have hnext : GrowsAt (disk.IsArtifact cache) after { after with clock := later } := growsAt_clock hafter.tree hlater
    rw [Transpiler.compileFolder_eq_visit, hwalk _ (hafter.trans hnext), ← hresults, foldlM_of_settled,
      ← Summary.again_addAll]
    · rfl
    · exact fun result hmem => hsettled result hmem _ (hafter.trans hnext) hnext.toGrows rfl

end Disk

theorem Config.not_mem_compiledExtension {config : Config} (h : config.validate = .ok ()) :
    '/' ∉ config.compiledExtension ∧ '.' ∉ config.compiledExtension := by
  have husable : isUsableExtension config.compiledExtension = true := by
    unfold validate fault? at h
    grind
  unfold isUsableExtension at husable
  rw [Bool.and_eq_true, List.all_eq_true] at husable
  constructor
  · exact fun hmem => by simpa using husable.2 _ hmem
  · exact fun hmem => by simpa using husable.2 _ hmem

/-- The place for compiled forms is what the settings say, under an extension with neither slash nor dot. -/
theorem Transpiler.cache_of_create {limit : Markers.Limit} {config : Config} {transpiler : Transpiler} {cache : Cache}
    (hcreate : Transpiler.create limit config = .ok transpiler) (hcache : transpiler.cache = some cache) :
    config.cacheDir = some cache.dir ∧ cache.extension = config.compiledExtension ∧
      '/' ∉ cache.extension ∧ '.' ∉ cache.extension := by
  obtain ⟨hconfig, hcoherent⟩ := Transpiler.coherent_create hcreate
  have hcaches := hcoherent.cache
  rw [hcache, hconfig] at hcaches
  obtain ⟨cacheDir, hcacheDir, rfl⟩ := Option.map_eq_some_iff.1 hcaches.symm
  exact ⟨hcacheDir, rfl, Config.not_mem_compiledExtension (hconfig ▸ hcoherent.valid)⟩

namespace CommandLine

variable {disk : Disk} {limit : Markers.Limit} {config : ViewConfig} {dir : Path} {extensions : List Text}

/-- What a run without force comes to on a disk, and the disk after it. -/
def compileAllOn (limit : Markers.Limit) (config : ViewConfig) (dir : Path) (extensions : List Text) (disk : Disk) :
    Except Failure Summary × Disk :=
  (compileAll limit config dir false extensions : CommandT (StateM Disk) Summary) disk

/-- The extensions that are looked for: those of the settings, unless some are named. -/
def wantedExtensions (config : ViewConfig) (extensions : List Text) : List Text :=
  if extensions = [] then config.extensions else extensions

/-- The templates that a run finds below a directory. -/
def templatesOf (config : ViewConfig) (dir : Path) (extensions : List Text) (disk : Disk) : List Path :=
  disk.templates (hasExtension (wantedExtensions config extensions)) folderDepth dir

/-- The directory for compiled forms is outside the one that is walked, if their extension is looked for;
    and each name that leads up in its path leads out of a directory that is there. -/
def CacheApart (config : ViewConfig) (dir : Path) (extensions : List Text) (disk : Disk) : Prop :=
  ∀ cacheDir ∈ config.transpiler.cacheDir,
    disk.LeavesDirectories (disk.start cacheDir.isAbsolute) cacheDir.segments ∧
      (config.transpiler.compiledExtension ∈ wantedExtensions config extensions →
        ¬ disk.placeOf dir <:+ disk.placeOf cacheDir)

/-- The transpiler of the settings and its place for compiled forms, made without a look at the disk. -/
def compilerOf (limit : Markers.Limit) (config : ViewConfig) : Except Failure (Transpiler × Cache) :=
  match Transpiler.create limit config.transpiler with
  | .error error => .error (.during .setUp (.transpile error))
  | .ok transpiler =>
    match transpiler.cache with
    | some cache => .ok (transpiler, cache)
    | none => .error (.view .cacheDisabled)

theorem compilerFor_apply (limit : Markers.Limit) (config : ViewConfig) (disk : Disk) :
    (compilerFor limit config : CommandT (StateM Disk) (Transpiler × Cache)) disk =
      (compilerOf limit config, disk) := by
  have hsetUp : (transpilerFor limit config : CommandT (StateM Disk) Transpiler) disk =
      (((Transpiler.create limit config.transpiler).mapError Failure.transpile).mapError (Failure.during .setUp),
        disk) := rfl
  unfold compilerFor compilerOf
  refine (Run.bind_apply _ _ _).trans ?_
  rw [hsetUp]
  cases Transpiler.create limit config.transpiler with
  | error error => rfl
  | ok transpiler => cases hcache : transpiler.cache <;> simp only [Except.mapError, hcache] <;> rfl

theorem compilerOf_eq_ok {transpiler : Transpiler} {cache : Cache}
    (h : compilerOf limit config = .ok (transpiler, cache)) :
    Transpiler.create limit config.transpiler = .ok transpiler ∧ transpiler.cache = some cache := by
  unfold compilerOf at h
  split at h
  case h_1 => cases h
  case h_2 hcreate =>
    split at h
    case h_1 hcache =>
      cases h
      exact ⟨hcreate, hcache⟩
    case h_2 => cases h

theorem compileAllOn_apply (limit : Markers.Limit) (config : ViewConfig) (dir : Path) (extensions : List Text)
    (disk : Disk) :
    compileAllOn limit config dir extensions disk =
      if disk.isDirectory dir then
        match compilerOf limit config with
        | .error failure => (.error failure, disk)
        | .ok (transpiler, _) =>
          Prod.map .ok id ((transpiler.compileFolder (wantedExtensions config extensions) false dir :
            StateM Disk Summary) disk)
      else (.error (.notAFolder dir), disk) := by
  have hdirectory : (liftM (Folders.isDirectory dir : StateM Disk Bool) : CommandT (StateM Disk) Bool) disk =
      (.ok (disk.isDirectory dir), disk) := rfl
  unfold compileAllOn compileAll
  refine (Run.bind_apply_ok hdirectory).trans ?_
  cases disk.isDirectory dir with
  | false => rfl
  | true =>
    refine (Run.bind_apply _ _ _).trans ?_
    rw [compilerFor_apply]
    cases compilerOf limit config <;> rfl

/-- A run over a directory that is in order already takes its entries one after another. -/
theorem compileAllOn_of_sorted {transpiler : Transpiler} {cache : Cache}
    (hcompiler : compilerOf limit config = .ok (transpiler, cache)) (h : disk.Sorted dir) :
    compileAllOn limit config dir extensions disk =
      Prod.map .ok id (((disk.held (disk.placeOf dir)).foldlM (fun summary entry =>
        if entry.isDirectory then
          Folders.visit (hasExtension (wantedExtensions config extensions)) transpiler.refreshInto (folderDepth - 1)
            (dir.join ⟨entry.name⟩) summary
        else if hasExtension (wantedExtensions config extensions) entry.name then
          transpiler.refreshInto summary (dir.join ⟨entry.name⟩)
        else pure summary) .empty : StateM Disk Summary) disk) := by
  have hdir : disk.isDirectory dir = true := by rw [Disk.isDirectory, h.1]
  have hdepth : folderDepth = folderDepth - 1 + 1 := rfl
  rw [compileAllOn_apply, if_pos hdir, hcompiler]
  dsimp only
  rw [Transpiler.compileFolder_eq_visit, hdepth, h.visit]
  rfl

/-- The directory of the compiled forms keeps these apart from the templates. -/
theorem CacheApart.separates (h : CacheApart config dir extensions disk) (htree : disk.IsTree)
    (hearlier : disk.FilesEarlier) (hdir : disk.isDirectory dir = true) {transpiler : Transpiler} {cache : Cache}
    (hcreate : Transpiler.create limit config.transpiler = .ok transpiler) (hcache : transpiler.cache = some cache) :
    disk.Separates cache (hasExtension (wantedExtensions config extensions)) dir := by
  obtain ⟨hcacheDir, hextension, hslash, hdot⟩ := Transpiler.cache_of_create hcreate hcache
  obtain ⟨hleaves, hplace⟩ := h cache.dir hcacheDir
  obtain ⟨root, hlocate, hroot⟩ := Disk.isDirectory_iff.1 hdir
  obtain rfl := (Disk.locate_eq_ok hlocate).2
  refine ⟨htree, hearlier, hslash, hleaves, Disk.lookUp_of_directory hlocate hroot, fun source hbelow => ?_⟩
  rw [Bool.eq_false_iff]
  exact fun hwanted => hplace (hextension ▸ Cache.extension_mem_of_hasExtension hdot hwanted) hbelow

/-- Once the templates below a directory have been compiled, a run finds the same templates again. It
    compiles none, those that failed fail as they did, and nothing on the disk changes: if compiled forms
    are kept apart from templates, all files are older than what is written, and no two templates have
    the same digest. -/
theorem compileAllOn_again {later : Time} (htree : disk.IsTree) (hearlier : disk.FilesEarlier)
    (hcache : CacheApart config dir extensions disk)
    (hdigests : Disk.DigestsApart (templatesOf config dir extensions disk))
    (hlater : (compileAllOn limit config dir extensions disk).2.clock ≤ later) :
    compileAllOn limit config dir extensions { (compileAllOn limit config dir extensions disk).2 with clock := later } =
        ((compileAllOn limit config dir extensions disk).1.map Summary.again,
          { (compileAllOn limit config dir extensions disk).2 with clock := later }) ∧
      templatesOf config dir extensions (compileAllOn limit config dir extensions disk).2 =
        templatesOf config dir extensions disk ∧
      ∀ summary, (compileAllOn limit config dir extensions disk).1 = .ok summary →
        summary.count = (templatesOf config dir extensions disk).length := by
  rw [compileAllOn_apply limit config dir extensions disk] at hlater ⊢
  cases hdir : disk.isDirectory dir with
  | false =>
    rw [compileAllOn_apply]
    exact ⟨if_neg (Bool.eq_false_iff.1 hdir), rfl, nofun⟩
  | true =>
    rw [hdir, if_pos rfl] at hlater
    rw [if_pos rfl]
    cases hcompiler : compilerOf limit config with
    | error failure =>
      rw [compileAllOn_apply, hcompiler]
      exact ⟨if_pos hdir, rfl, nofun⟩
    | ok compiler =>
      obtain ⟨transpiler, cache⟩ := compiler
      obtain ⟨hcreate, hplace⟩ := compilerOf_eq_ok hcompiler
      have hapart := hcache.separates htree hearlier hdir hcreate hplace
      obtain ⟨summary, after, hfirst, hgrows, hcount, hsecond⟩ :=
        hapart.compileFolder_again hplace hdigests later
      rw [hcompiler] at hlater
      dsimp only at hlater ⊢
      rw [hfirst] at hlater ⊢
      obtain ⟨htemplates, hagain⟩ := hsecond hlater
      refine ⟨?_, htemplates, fun _ hsummary => ?_⟩
      · have hdir' : ({ after with clock := later } : Disk).isDirectory dir = true := hgrows.isDirectory hdir
        rw [compileAllOn_apply]
        dsimp only [Prod.map, id]
        rw [if_pos hdir', hcompiler]
        dsimp only
        rw [hagain]
        rfl
      · cases hsummary
        exact hcount

/-- A disk with some files and their times. -/
def diskWith (files : List (Path × Text × Time)) : Disk :=
  files.foldl (fun disk file => (disk.store file.1 (.text file.2.1) file.2.2).1) (.empty ["shop".toList] 3)

theorem isTree_diskWith (files : List (Path × Text × Time)) : (diskWith files).IsTree := by
  unfold diskWith
  induction files using List.reverseRecOn with
  | nil => exact Disk.isTree_empty 3 (by simpa using ⟨⟨by decide, by decide⟩, by decide, by decide, by decide⟩)
  | append_singleton files file ih =>
    rw [List.foldl_append]
    exact (Disk.store_growsAt ih ..).tree

/-- Settings with a directory for compiled forms and an extension for these. -/
def configWith (cacheDir extension : String) : ViewConfig :=
  { ViewConfig.default with
    transpiler := { Config.default with
      cacheDir := some (.ofString cacheDir), compiledExtension := extension.toList } }

/-- A disk with one template. -/
def homeDisk : Disk := diskWith [(.ofString "views/home.php", "\x7b\x7b $title \x7d\x7d".toList, 1)]

/-- Compiled forms can go among the templates, under an extension of their own. -/
theorem compileAllOn_again_homeDisk :
    (compileAllOn Markers.standardLimit (configWith "views/out" "out") (.ofString "views") [] homeDisk).1 =
        .ok ⟨1, 0, []⟩ ∧
      (compileAllOn Markers.standardLimit (configWith "views/out" "out") (.ofString "views") []
        { (compileAllOn Markers.standardLimit (configWith "views/out" "out") (.ofString "views") [] homeDisk).2 with
          clock := 4 }).1 = .ok ⟨0, 1, []⟩ := by
  have hfirst : (compileAllOn Markers.standardLimit (configWith "views/out" "out") (.ofString "views") [] homeDisk).1 =
      .ok ⟨1, 0, []⟩ := by decide +kernel
  have hcache : CacheApart (configWith "views/out" "out") (.ofString "views") [] homeDisk := by
    rintro cacheDir ⟨⟩
    decide +kernel
  obtain ⟨hsecond, -, -⟩ := @compileAllOn_again homeDisk Markers.standardLimit (configWith "views/out" "out")
    (.ofString "views") [] 4 (isTree_diskWith _) (Disk.filesEarlier_of_entries (by decide +kernel)) hcache
    (by decide +kernel) (by decide +kernel)
  rw [hsecond, hfirst]
  exact ⟨rfl, rfl⟩

/-- The disk with the compiled form of the template next to it. -/
def mixedDisk : Disk :=
  (homeDisk.store (.ofString "views/cache/6ee92c072dd1b1b6f6d55bc2832f6d74ce07cb7e6d1a783a3897fc8b929fdf27.php")
    (.text "<?php echo e($title); ?>".toList) 3).1

/-- A disk with a template that is cut off, another one, and a file in the place of the compiled form of the first. -/
def detourDisk : Disk :=
  diskWith [(.ofString "views/b.php", "b".toList, 1), (.ofString "views/a.php", "\x7b\x7b $a".toList, 1),
    (.ofString "cache/f34b6e4a405d8b4e34af69371291dcc24980033a4da8c150b7896f52157c5ec7.php", "b".toList, 2)]

/-- The disk with the compiled form of the second template, and a directory that the path to it leads through. -/
def detouredDisk : Disk :=
  (detourDisk.store (.ofString "new/../cache/06a6f3c938e8c45ed8ac0aabbc01956732afb059cad0cfbc084cd530d40f59bc.php")
    (.text "b".toList) 3).1

/-- A compiled form among the templates is taken for one of them by the next run. And a compiled form that
    is found only once its path leads somewhere hides that its template is cut off. -/
theorem compileAllOn_again_ne :
    (homeDisk.IsTree ∧ homeDisk.FilesEarlier ∧
      compileAllOn Markers.standardLimit (configWith "views/cache" "php") (.ofString "views") [] homeDisk =
        (.ok ⟨1, 0, []⟩, mixedDisk) ∧
      (compileAllOn Markers.standardLimit (configWith "views/cache" "php") (.ofString "views") []
        { mixedDisk with clock := 4 }).1 = .ok ⟨1, 1, []⟩) ∧
    detourDisk.IsTree ∧ detourDisk.FilesEarlier ∧
      compileAllOn Markers.standardLimit (configWith "new/../cache" "php") (.ofString "views") [] detourDisk =
        (.ok ⟨1, 0, [(.ofString "views/a.php", .unterminatedTag .regularEcho 0)]⟩, detouredDisk) ∧
      (compileAllOn Markers.standardLimit (configWith "new/../cache" "php") (.ofString "views") []
        { detouredDisk with clock := 4 }).1 = .ok ⟨0, 2, []⟩ := by
  refine ⟨⟨isTree_diskWith _, Disk.filesEarlier_of_entries (by decide +kernel), by decide +kernel, ?_⟩,
    isTree_diskWith _, Disk.filesEarlier_of_entries (by decide +kernel), ?_, ?_⟩
  · rw [compileAllOn_of_sorted rfl (by decide +kernel)]
    decide +kernel
  · rw [compileAllOn_of_sorted rfl (by decide +kernel)]
    decide +kernel
  · rw [compileAllOn_of_sorted rfl (by decide +kernel)]
    decide +kernel

end CommandLine

end Template
