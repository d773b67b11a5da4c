import Mathlib.Data.List.Forall2
import Template.Proofs.Lookup
import Template.Proofs.OneTemplate
import Template.Proofs.ViewFile
import Template.Proofs.WarmCache
import Template.View.Engine

/-! # Views from a warm cache

Once the templates below a directory have been compiled, an engine that looks for views in that
directory has nothing left to compile. What it finds is a template that the run met, and the compiled
form of that is in order.
-/

namespace Template

namespace Disk

variable {disk : Disk} {folder path : Path} {wanted : Text → Bool} {root : Location}

/-- Below a directory no other one has the name of a file that is wanted. -/
def FoldersUnwanted (disk : Disk) (wanted : Text → Bool) (root : Location) : Prop :=
  ∀ name around, root <:+ around → disk.node? (name :: around) = some .directory → wanted name = false

theorem foldersUnwanted_of_entries
    (h : ∀ entry ∈ disk.nodes.entries, entry.2 = .directory → ∀ name ∈ entry.1.head?, wanted name = false) :
    disk.FoldersUnwanted wanted root :=
  fun _ _ _ hnode => h _ (Table.mem_entries_of_find? hnode) rfl _ rfl

section

variable {finder : Finder} {parts : List Text}

/-- Where a view is looked for below a folder: at a path by names, the last of which a walk looks for too. -/
theorem exists_of_mem_candidates (hslash : ∀ extension ∈ finder.extensions, '/' ∉ extension)
    (hparts : parts ≠ [] ∧ ∀ part ∈ parts, ViewName.IsPart part)
    (h : path ∈ finder.candidates (ViewName.ofParts parts) [folder]) :
    ∃ front name, path = folder.below (front ++ [name]) ∧ (∀ s ∈ front ++ [name], LeadsDown s) ∧
      hasExtension finder.extensions name = true := by
  obtain ⟨hnil, hparts⟩ := hparts
  obtain ⟨front, last, rfl⟩ : ∃ front last, parts = front ++ [last] :=
    ⟨_, _, (List.dropLast_concat_getLast hnil).symm⟩
  unfold Finder.candidates Finder.fileNames at h
  rw [List.flatMap_cons, List.flatMap_nil, List.append_nil, List.map_map, List.mem_map] at h
  obtain ⟨extension, hextension, rfl⟩ := h
  have hlast := hparts last (List.mem_append_right _ List.mem_cons_self)
  refine ⟨front, last ++ '.' :: extension, ?_, fun s hs => ?_, ViewName.hasExtension_fileName hlast hextension⟩
  · exact ViewName.join_file_ofParts folder hparts (hslash extension hextension)
  · rcases List.mem_append.1 hs with hfront | hfile
    · exact (hparts s (List.mem_append_left _ hfront)).leadsDown
    · rw [List.mem_singleton.1 hfile]
      exact ViewName.leadsDown_fileName hlast (hslash extension hextension)

/-- What is found there a walk meets, unless a directory has the name of such a file. -/
theorem mem_templates_of_candidate (htree : disk.IsTree) (hslash : ∀ extension ∈ finder.extensions, '/' ∉ extension)
    (hunwanted : disk.FoldersUnwanted (hasExtension finder.extensions) (disk.placeOf folder)) (hne : folder.text ≠ []) (hparts : parts ≠ [] ∧ ∀ part ∈ parts, ViewName.IsPart part)
    (hcandidate : path ∈ finder.candidates (ViewName.ofParts parts) [folder]) (hpresent : disk.isPresent path = true) :
    path ∈ disk.templates (hasExtension finder.extensions) folderDepth folder := by
  obtain ⟨front, name, rfl, hnames, hwanted⟩ := exists_of_mem_candidates hslash hparts hcandidate
  unfold isPresent at hpresent
  cases hlookUp : disk.lookUp (folder.below (front ++ [name])) with
  | error error =>
    rw [hlookUp] at hpresent
    cases hpresent
  | ok found =>
    obtain ⟨place, node⟩ := found
    obtain ⟨hlocate, hnode⟩ := lookUp_eq_ok hlookUp
    cases node with
    | directory =>
      obtain ⟨around, haround, rfl, -, -⟩ := exists_of_locate_below hnames hne hlocate
      rw [List.reverse_append, List.append_assoc] at hnode
      have hbelow : disk.placeOf folder <:+ front.reverse ++ around := by
        rw [← (locate_eq_ok haround).2]
        exact List.suffix_append _ _
      rw [hunwanted _ _ hbelow hnode] at hwanted
      cases hwanted
    | file contents time =>
      have hbytes := (locate_eq_ok hlocate).1.length
      have hlength := Path.length_le_byteLength_below (fun s hs => (hnames s hs).segment) folder
      rw [List.length_append, List.length_singleton] at hlength
      have hdepth : front.length < folderDepth := by
        unfold folderDepth
        unfold pathLimit at hbytes
        omega
      exact mem_templates htree hnames hne hlookUp hwanted hdepth

end

end Disk

namespace Finder

theorem firstPresent?_disk (paths : List Path) (disk : Disk) :
    (firstPresent? paths : StateM Disk (Option Path)) disk = (paths.find? disk.isPresent, disk) := by
  induction paths with
  | nil => rfl
  | cons path paths ih =>
    change (if disk.isPresent path then pure (some path) else firstPresent? paths : StateM Disk (Option Path)) disk = _
    rw [List.find?_cons]
    cases disk.isPresent path with
    | true => rfl
    | false => exact ih

theorem lookUp_disk (finder : Finder) (name : Text) (disk : Disk) :
    (finder.lookUp name : StateM Disk (Except ViewError Path)) disk =
      (finder.places.lookUp disk.isPresent name, disk) := by
  rw [lookUp_places]
  unfold lookUp
  cases finder.request name with
  | error error => rfl
  | ok request =>
    obtain ⟨view, dirs⟩ := request
    dsimp only
    rw [Run.stateM_bind_apply, firstPresent?_disk, search_places]
    cases (finder.candidates view dirs).find? disk.isPresent <;> rfl

/-- A name by its parts is looked for in the directories of the finder. -/
theorem plainLookUp_ofParts {parts : List Text} (finder : Finder) (present : Path → Bool)
    (hparts : ∀ part ∈ parts, ViewName.IsPart part) :
    finder.places.plainLookUp present (ViewName.ofParts parts) =
      match (finder.candidates (ViewName.ofParts parts) finder.paths).find? present with
      | some place => .ok place
      | none => .error (.notFound (ViewName.ofParts parts) (finder.candidates (ViewName.ofParts parts) finder.paths)) := by
  obtain ⟨hnormal, hhint⟩ := ViewName.normalize_ofParts hparts
  rw [SearchPlaces.plainLookUp, hnormal, SearchPlaces.lookUp, hhint, if_neg Bool.false_ne_true]
  exact finder.search_places present _ _ finder.paths

/-- Whatever is remembered is what is found on the disk. -/
def RemembersOn (disk : Disk) (finder : Finder) : Prop :=
  ∀ name place, finder.found.find? name = some place → finder.places.lookUp disk.isPresent name = .ok place

/-- A finder looks as it would without what it remembers, and remembers what it finds. -/
theorem RemembersOn.find {finder : Finder} {disk : Disk} (h : finder.RemembersOn disk) (name : Text) :
    ∃ next : Finder, next.RemembersOn disk ∧ next.places = finder.places ∧
      (finder.find name : StateM Disk (Except ViewError Path × Finder)) disk =
        ((finder.places.plainLookUp disk.isPresent name, next), disk) := by
  unfold Finder.find SearchPlaces.plainLookUp
  cases hfound : finder.found.find? (ViewName.normalize name) with
  | some place =>
    refine ⟨finder, h, rfl, ?_⟩
    rw [h _ _ hfound]
    rfl
  | none =>
    dsimp only
    rw [Run.stateM_bind_apply, lookUp_disk]
    cases hlookUp : finder.places.lookUp disk.isPresent (ViewName.normalize name) with
    | error error => exact ⟨finder, h, rfl, rfl⟩
    | ok place =>
      refine ⟨{ finder with found := finder.found.insert (ViewName.normalize name) place },
        fun key other hkey => ?_, rfl, rfl⟩
      dsimp only at hkey
      rw [Table.find?_insert] at hkey
      split at hkey
      case isTrue heq =>
        cases hkey
        rw [heq]
        exact hlookUp
      case isFalse => exact h key other hkey

end Finder

namespace Engine

/-- A compiled form that is in order is the answer, and nothing is written. -/
theorem compiled_of_isFresh {engine : Engine} {cache : Cache} {disk : Disk} {source : Path}
    (hcache : engine.transpiler.cache = some cache) (h : disk.IsFresh cache source) :
    (engine.compiled source : StateM Disk (Except ViewError Path)) disk = (.ok (cache.compiledPath source), disk) := by
  have hstep : ((engine.transpiler.compiler.compileIfStale source : FilesT (StateM Disk) Bool).run :
      StateM Disk _) disk = (.ok false, disk) := Disk.refresh_of_isFresh hcache h
  unfold compiled
  rw [Compiler.compiled_of_cache source hcache, Run.stateM_bind_apply, hstep]
  rfl

/-- The answers to the names of views, one after another. -/
def resolveEach {m : Type → Type} [Monad m] [Files m] (engine : Engine) : List Text → m (List (Except ViewError Path))
  | [] => pure []
  | name :: names => do
    let (outcome, engine) ← (engine.resolve name : m (Except ViewError Path × Engine))
    return outcome :: (← engine.resolveEach names)

/-- Where the compiled form of each view that is found is in order, the answers are these compiled forms,
    and nothing is written. -/
theorem resolveEach_of_isFresh {engine : Engine} {cache : Cache} {disk : Disk} {names : List Text}
    (hcache : engine.transpiler.cache = some cache) (hremembers : engine.finder.RemembersOn disk)
    (hfresh : ∀ name ∈ names, ∀ source, engine.finder.places.plainLookUp disk.isPresent name = .ok source →
      disk.IsFresh cache source) :
    (engine.resolveEach names : StateM Disk (List (Except ViewError Path))) disk =
      (names.map fun name => (engine.finder.places.plainLookUp disk.isPresent name).map cache.compiledPath, disk) := by
  induction names generalizing engine with
  | nil => rfl
  | cons name names ih =>
    rw [List.forall_mem_cons] at hfresh
    obtain ⟨next, hnext, hplaces, hfind⟩ := hremembers.find name
    have hresolve : (engine.resolve name : StateM Disk (Except ViewError Path × Engine)) disk =
        (((engine.finder.places.plainLookUp disk.isPresent name).map cache.compiledPath,
          { engine with finder := next }), disk) := by
      unfold resolve Compiler.resolve
      rw [Run.stateM_bind_apply, Run.stateM_bind_apply, hfind]
      cases hplain : engine.finder.places.plainLookUp disk.isPresent name with
      | error error => rfl
      | ok source =>
        have hcompiled : (engine.transpiler.compiler : Compiler (StateM Disk)).compiled source disk =
            (.ok (cache.compiledPath source), disk) := compiled_of_isFresh hcache (hfresh.1 source hplain)
        dsimp only
        rw [Run.stateM_bind_apply, hcompiled]
        rfl
    have hrest := @ih { engine with finder := next } hcache hnext (by rw [hplaces]; exact hfresh.2)
    rw [hplaces] at hrest
    unfold resolveEach
    rw [Run.stateM_bind_apply, hresolve]
    dsimp only
    rw [Run.stateM_bind_apply, hrest]
    rfl

end Engine

/-- What a finder finds below a folder after a run over the templates there is one of these, and in order. -/
theorem Disk.Warmable.exists_mem_log {disk after : Disk} {cache : Cache} {folder source : Path}
    {transpiler : Transpiler} {log : List (Path × Except TranspileError Bool)} {parts : List Text} {later : Time}
    (finder : Finder) (h : disk.Warmable cache (hasExtension finder.extensions) folder) (hcache : transpiler.cache = some cache)
    (hlog : disk.refreshEach transpiler (disk.templates (hasExtension finder.extensions) folderDepth folder) =
      (log, after))
    (hok : ∀ result ∈ log, ∃ written, result.2 = .ok written) (hpaths : finder.paths = [folder])
    (hslash : ∀ extension ∈ finder.extensions, '/' ∉ extension)
    (hunwanted : after.FoldersUnwanted (hasExtension finder.extensions) (disk.placeOf folder))
    (hlater : after.clock ≤ later) (hparts : parts ≠ [] ∧ ∀ part ∈ parts, ViewName.IsPart part)
    (hfound : finder.places.plainLookUp after.isPresent (ViewName.ofParts parts) = .ok source) :
    (∃ written, (source, .ok written) ∈ log) ∧ ({ after with clock := later } : Disk).IsFresh cache source := by
  have hrefl : GrowsAt (disk.IsArtifact cache) disk disk := .refl h.tree
  obtain ⟨hgrows, -, hfresh⟩ := h.refreshEach hcache hrefl (fun _ hmem => hmem) (by rw [hlog]; exact hok)
  rw [hlog] at hgrows hfresh
  have hmem : source ∈ disk.templates (hasExtension finder.extensions) folderDepth folder := by
    rw [finder.plainLookUp_ofParts _ hparts.2, hpaths] at hfound
    cases hfind : (finder.candidates (ViewName.ofParts parts) [folder]).find? after.isPresent with
    | none =>
      rw [hfind] at hfound
      cases hfound
    | some found =>
      rw [hfind] at hfound
      cases hfound
      rw [← templates_eq h.tree h.unwanted (reached_root h.root) hgrows folderDepth]
      rw [← hgrows.placeOf] at hunwanted
      exact mem_templates_of_candidate hgrows.tree hslash hunwanted
        (locate_eq_ok (lookUp_eq_ok h.root).1).1.ne_nil hparts (List.mem_of_find?_eq_some hfind)
        (List.find?_some hfind)
  obtain ⟨outcome, hresult⟩ := Disk.exists_mem_log transpiler disk hmem
  rw [hlog] at hresult
  obtain ⟨written, rfl⟩ := hok _ hresult
  have hnext : GrowsAt Nowhere after { after with clock := later } := growsAt_clock hgrows.tree hlater
  refine ⟨⟨written, hresult⟩, (hfresh source hmem).grows hnext id ?_⟩
  rw [h.modifiedAt hgrows hmem, h.modifiedAt (hgrows.trans (hnext.mono fun _ => False.elim)) hmem]

namespace CommandLine

variable {limit : Markers.Limit} {config : ViewConfig} {dir : Path} {extensions : List Text} {disk after : Disk}
  {cache : Cache} {summary : Summary} {later : Time}

/-- The answer to the name of a view after a run that left a log: there is no such view, or its compiled form
    is in order, and the run has stored it or found it so. -/
def Served (cache : Cache) (log : List (Path × Except TranspileError Bool)) (disk : Disk) (name : Text)
    (answer : Except ViewError Path) : Prop :=
  (∃ tried, answer = .error (.notFound name tried)) ∨
    ∃ source written, (source, .ok written) ∈ log ∧ disk.IsFresh cache source ∧ answer = .ok (cache.compiledPath source)

/-- A run that comes to an end had a directory to walk, and a transpiler. -/
theorem exists_of_compileAllOn_eq_ok (hcache : cacheOf config = some cache)
    (hrun : compileAllOn limit config dir extensions disk = (.ok summary, after)) :
    ∃ transpiler, Transpiler.create limit config.transpiler = .ok transpiler ∧ transpiler.cache = some cache ∧
      '/' ∉ cache.extension ∧ disk.lookUp dir = .ok (disk.placeOf dir, .directory) ∧
      (transpiler.compileFolder (wantedExtensions config extensions) false dir : StateM Disk Summary) disk =
        (summary, after) := by
  rw [compileAllOn_apply] at hrun
  cases hdir : disk.isDirectory dir with
  | false =>
    rw [hdir, if_neg Bool.false_ne_true] at hrun
    cases hrun
  | true =>
    rw [hdir, if_pos rfl, compilerOf_of_cacheOf hcache] at hrun
    cases hcreate : Transpiler.create limit config.transpiler with
    | error error =>
      rw [hcreate] at hrun
      cases hrun
    | ok transpiler =>
      rw [hcreate] at hrun
      obtain ⟨hconfig, hcoherent⟩ := Transpiler.coherent_create hcreate
      have hplace := hcoherent.cache
      rw [hconfig] at hplace
      replace hplace := hplace.trans hcache
      obtain ⟨cacheDir, -, rfl⟩ := Option.map_eq_some_iff.1 hcache
      obtain ⟨root, hlocate, hroot⟩ := Disk.isDirectory_iff.1 hdir
      obtain rfl := (Disk.locate_eq_ok hlocate).2
      obtain ⟨hslash, -⟩ := Config.not_mem_compiledExtension (hconfig ▸ hcoherent.valid)
      refine ⟨transpiler, rfl, hplace, hslash, Disk.lookUp_of_directory hlocate hroot, ?_⟩
      dsimp only at hrun
      cases hcompile : (transpiler.compileFolder (wantedExtensions config extensions) false dir :
          StateM Disk Summary) disk with
      | mk compiled last =>
        rw [hcompile] at hrun
        cases hrun
        rfl

/-- After a run over a directory in which nothing failed, an engine that looks for views in it writes nothing
    any more. Whatever views it is asked for, each is not found or has its compiled form where the run has
    stored it or found it in order: if compiled forms go outside the directory, the templates are older than
    what is written and have compiled forms of their own, and no directory has the name of a template. -/
theorem compileAllOn_warms (htree : disk.IsTree) (hpaths : config.paths = [dir])
    (hextensions : wantedExtensions config extensions = config.extensions)
    (hslash : ∀ extension ∈ config.extensions, '/' ∉ extension) (hcache : cacheOf config = some cache)
    (houtside : ¬ disk.placeOf dir <:+ disk.placeOf cache.dir)
    (hearlier : ∀ source ∈ templatesOf config dir extensions disk, ∀ time,
      disk.modifiedAt source = .ok time → time < disk.clock)
    (hapart : ∀ source ∈ templatesOf config dir extensions disk, ∀ other ∈ templatesOf config dir extensions disk,
      cache.compiledPath source = cache.compiledPath other → source = other)
    (hrun : compileAllOn limit config dir extensions disk = (.ok summary, after)) (hfailed : summary.failed = [])
    (hunwanted : after.FoldersUnwanted (hasExtension config.extensions) (disk.placeOf dir))
    (hlater : after.clock ≤ later) :
    ∃ engine log, Engine.ofConfig limit config = .ok engine ∧
      disk.refreshEach engine.transpiler (templatesOf config dir extensions disk) = (log, after) ∧
      summary = Summary.empty.addAll log ∧
      ∀ names : List (List Text), (∀ parts ∈ names, parts ≠ [] ∧ ∀ part ∈ parts, ViewName.IsPart part) →
        ∃ answers, (engine.resolveEach (names.map ViewName.ofParts) : StateM Disk _) { after with clock := later } =
            (answers, { after with clock := later }) ∧
          List.Forall₂ (Served cache log { after with clock := later }) (names.map ViewName.ofParts) answers := by
  obtain ⟨transpiler, hcreate, hplace, hextension, hroot, hcompile⟩ := exists_of_compileAllOn_eq_ok hcache hrun
  unfold templatesOf at hearlier hapart ⊢
  rw [hextensions] at hearlier hapart hcompile ⊢
  have hwarmable : disk.Warmable cache (hasExtension config.extensions) dir :=
    ⟨htree, hextension, hroot, houtside, hearlier, hapart⟩
  have hengine : Engine.ofConfig limit config = .ok ⟨transpiler, config.finder⟩ := by
    unfold Engine.ofConfig
    rw [hcreate]
    rfl
  rw [hwarmable.compileFolder hplace] at hcompile
  cases hlog : disk.refreshEach transpiler (disk.templates (hasExtension config.extensions) folderDepth dir) with
  | mk log last =>
    rw [hlog] at hcompile
    cases hcompile
    have hok := (Summary.ok_of_failed_addAll hfailed).2
    refine ⟨⟨transpiler, config.finder⟩, log, hengine, hlog, rfl, fun names hnames => ?_⟩
    -- The clock has no part in what is found.
    have hfound : ∀ parts ∈ names, ∀ source,
        config.finder.places.plainLookUp ({ after with clock := later } : Disk).isPresent (ViewName.ofParts parts) =
            .ok source →
          (∃ written, (source, .ok written) ∈ log) ∧ ({ after with clock := later } : Disk).IsFresh cache source :=
      fun parts hmem source hsource => hwarmable.exists_mem_log config.finder hplace hlog hok hpaths hslash
        hunwanted hlater (hnames parts hmem) hsource
    refine ⟨_, Engine.resolveEach_of_isFresh hplace nofun (List.forall_mem_map.2 fun parts hmem source hsource =>
      (hfound parts hmem source hsource).2), ?_⟩
    rw [List.forall₂_map_right_iff, List.forall₂_same]
    refine List.forall_mem_map.2 fun parts hmem => ?_
    cases hanswer : config.finder.places.plainLookUp ({ after with clock := later } : Disk).isPresent
        (ViewName.ofParts parts) with
    | error error =>
      rw [config.finder.plainLookUp_ofParts _ (hnames parts hmem).2] at hanswer
      split at hanswer
      case h_1 => cases hanswer
      case h_2 =>
        cases hanswer
        exact .inl ⟨_, rfl⟩
    | ok source =>
      obtain ⟨⟨written, hresult⟩, hfresh⟩ := hfound parts hmem source hanswer
      exact .inr ⟨source, written, hresult, hfresh, rfl⟩

/-- Settings for views in a directory. -/
def viewsWith (cacheDir : String) : ViewConfig :=
  { configWith cacheDir "php" with paths := [.ofString "views"] }

/-- What a run over the views leaves on the disk with one template. -/
def homeRun (cacheDir : String) : Except Failure Summary × Disk :=
  compileAllOn Markers.standardLimit (viewsWith cacheDir) (.ofString "views") [] homeDisk

theorem modifiedAt_homeDisk (cacheDir : String) (source : Path)
    (hsource : source ∈ templatesOf (viewsWith cacheDir) (.ofString "views") [] homeDisk) (time : Time)
    (htime : homeDisk.modifiedAt source = .ok time) : time < homeDisk.clock := by
  have htimes : ∀ source ∈ templatesOf (viewsWith "cache") (.ofString "views") [] homeDisk,
      homeDisk.modifiedAt source = .ok 1 := by decide +kernel
  rw [htimes source hsource] at htime
  cases htime
  decide

theorem compileAllOn_warms_homeDisk :
    ∃ engine log answers, Engine.ofConfig Markers.standardLimit (viewsWith "cache") = .ok engine ∧
      (engine.resolveEach ["home".toList, "shop.cart".toList] : StateM Disk _) { (homeRun "cache").2 with clock := 4 } =
        (answers, { (homeRun "cache").2 with clock := 4 }) ∧
      List.Forall₂ (Served ⟨.ofString "cache", "php".toList⟩ log { (homeRun "cache").2 with clock := 4 })
        ["home".toList, "shop.cart".toList] answers := by
  have hrun : homeRun "cache" = (.ok ⟨1, 0, []⟩, (homeRun "cache").2) := Prod.ext (by decide +kernel) rfl
  have hslash : ∀ extension ∈ (viewsWith "cache").extensions, '/' ∉ extension := by decide +kernel
  have hunwanted : (homeRun "cache").2.FoldersUnwanted (hasExtension (viewsWith "cache").extensions)
      (homeDisk.placeOf (.ofString "views")) := Disk.foldersUnwanted_of_entries (by decide +kernel)
  obtain ⟨engine, log, hengine, -, -, hnames⟩ :=
    @compileAllOn_warms Markers.standardLimit (viewsWith "cache") (.ofString "views") [] homeDisk
      (homeRun "cache").2 ⟨.ofString "cache", "php".toList⟩ ⟨1, 0, []⟩ 4 (isTree_diskWith _) rfl rfl hslash rfl
      (by decide +kernel) (modifiedAt_homeDisk _) (by decide +kernel) hrun rfl hunwanted (by decide +kernel)
  obtain ⟨answers, hanswers, hserved⟩ := hnames [["home".toList], ["shop".toList, "cart".toList]] (by decide +kernel)
  exact ⟨engine, log, answers, hengine, hanswers, hserved⟩

/-- A path to the compiled forms that leads through a directory in the place of a template makes that directory,
    and the engine takes it for the template. -/
theorem compileAllOn_warms_ne :
    let cache : Cache := ⟨.ofString "views/new.php/../../cache", "php".toList⟩
    let config := viewsWith "views/new.php/../../cache"
    let sources := templatesOf config (.ofString "views") [] homeDisk
    homeDisk.IsTree ∧ config.paths = [.ofString "views"] ∧ wantedExtensions config [] = config.extensions ∧
      (∀ extension ∈ config.extensions, extension ≠ [] ∧ '/' ∉ extension) ∧ cacheOf config = some cache ∧
      ¬ homeDisk.placeOf (.ofString "views") <:+ homeDisk.placeOf cache.dir ∧
      (∀ source ∈ sources, ∀ time, homeDisk.modifiedAt source = .ok time → time < homeDisk.clock) ∧
      (∀ source ∈ sources, ∀ other ∈ sources,
        cache.compiledPath source = cache.compiledPath other → source = other) ∧
      homeDisk.FoldersUnwanted (hasExtension config.extensions) (homeDisk.placeOf (.ofString "views")) ∧
      (homeRun "views/new.php/../../cache").1 = .ok ⟨1, 0, []⟩ ∧
      ∃ engine, Engine.ofConfig Markers.standardLimit config = .ok engine ∧
        ((engine.resolveEach ["new".toList] : StateM Disk _)
          { (homeRun "views/new.php/../../cache").2 with clock := 4 }).1 = [.error (.transpile (.io .isADirectory))] := by
  refine ⟨isTree_diskWith _, rfl, rfl, by decide +kernel, rfl, by decide +kernel, modifiedAt_homeDisk _,
    by decide +kernel, Disk.foldersUnwanted_of_entries (by decide +kernel), by decide +kernel, ?_⟩
  have hanswer : ((Engine.ofConfig Markers.standardLimit (viewsWith "views/new.php/../../cache")).toOption.map
      fun engine => ((engine.resolveEach ["new".toList] : StateM Disk _)
        { (homeRun "views/new.php/../../cache").2 with clock := 4 }).1) =
      some [.error (.transpile (.io .isADirectory))] := by decide +kernel
  cases hengine : Engine.ofConfig Markers.standardLimit (viewsWith "views/new.php/../../cache") with
  | error error =>
    rw [hengine] at hanswer
    cases hanswer
  | ok engine =>
    rw [hengine] at hanswer
    exact ⟨engine, rfl, Option.some.inj hanswer⟩

end CommandLine

end Template
