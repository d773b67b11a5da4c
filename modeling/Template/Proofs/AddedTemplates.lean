import Template.Proofs.EachAlone

/-! # Templates that are added

Files that are added to a folder change nothing for the templates that are there. So a template that
fails, or is taken away, leaves what comes of all the others as it is.
-/

namespace Template

namespace Summary

/-- The summary without the failures of templates that are not among some. -/
def among (sources : List Path) (summary : Summary) : Summary :=
  { summary with failed := summary.failed.filter fun failure => failure.1 ∈ sources }

/-- The failure of a template, if it has failed. -/
def failure? (result : Path × Except TranspileError Bool) : Option (Path × TranspileError) :=
  match result.2 with
  | .error error => some (result.1, error)
  | .ok _ => none

variable {sources : List Path} {results : List (Path × Except TranspileError Bool)}

/-- The failures stand in a summary in the order in which they were met. -/
theorem failed_addAll (summary : Summary) (results : List (Path × Except TranspileError Bool)) :
    (summary.addAll results).failed = summary.failed ++ results.filterMap failure? := by
  induction results generalizing summary with
  | nil => exact (List.append_nil _).symm
  | cons result results ih =>
    obtain ⟨source, outcome⟩ := result
    unfold addAll at ih ⊢
    rw [List.foldl_cons, ih, List.filterMap_cons]
    cases outcome with
    | error error => exact List.append_assoc _ _ _
    | ok written => cases written <;> rfl

/-- Where all the others have failed, the summary of some is the one of all without the failures of the others. -/
theorem addAll_among (h : ∀ result ∈ results, result.1 ∉ sources → ∃ error, result.2 = .error error)
    (summary : Summary) :
    (summary.among sources).addAll (results.filter fun result => result.1 ∈ sources) =
      (summary.addAll results).among sources := by
  induction results generalizing summary with
  | nil => rfl
  | cons result results ih =>
    rw [List.forall_mem_cons] at h
    obtain ⟨source, outcome⟩ := result
    have hrest := ih h.2 (summary.add source outcome)
    unfold addAll at hrest ⊢
    rw [List.foldl_cons, ← hrest, List.filter_cons]
    by_cases hmem : source ∈ sources
    · rw [if_pos (decide_eq_true hmem), List.foldl_cons]
      refine congrArg (List.foldl _ · _) ?_
      cases outcome with
      | error error => simp [among, add, List.filter_append, hmem]
      | ok written => cases written <;> rfl
    · obtain ⟨error, rfl⟩ := h.1 hmem
      rw [if_neg (by simpa using hmem)]
      refine congrArg (List.foldl _ · _) ?_
      simp [among, add, List.filter_append, hmem]

end Summary

namespace Disk

variable {disk more : Disk} {cache : Cache} {transpiler : Transpiler} {always : Bool} {source folder : Path}
  {place root : Location} {entry : Entry} {wanted : Text → Bool} {depth : Nat}

/-! ## The templates that were there -/

/-- What is a directory on a later disk was one before, if anything was there. -/
theorem Grows.directory_of_isSome (h : Grows disk more) (hkept : (disk.node? place).isSome = true)
    (hnode : more.node? place = some .directory) : disk.node? place = some .directory := by
  obtain ⟨node, hfound⟩ := Option.isSome_iff_exists.1 hkept
  cases node with
  | directory => exact hfound
  | file contents time =>
    obtain ⟨_, _, hfile⟩ := h.file hfound
    rw [hnode] at hfile
    cases hfile

/-- Something is at the place of a path. -/
def isThere (disk : Disk) (path : Path) : Bool := (disk.node? (disk.placeOf path)).isSome

/-- What is new in a directory has nothing below it that was there. -/
theorem filter_entryTemplates_of_none (htree : disk.IsTree) (h : Grows disk more)
    (hlookUp : more.lookUp folder = .ok (place, .directory)) (hentry : entry ∈ more.entries folder)
    (hnone : disk.node? (entry.name :: place) = none) (depth : Nat) :
    (more.entryTemplates wanted depth folder entry).filter disk.isThere = [] := by
  rw [List.filter_eq_nil_iff]
  intro path hpath
  obtain ⟨front, hfront⟩ := suffix_of_mem_entryTemplates h.tree hlookUp hentry hpath
  rw [isThere, ← h.placeOf path, ← hfront, htree.node?_below front hnone]
  exact Bool.false_ne_true

/-- A walk on a later disk takes the files that were there as before, and may take others between them. -/
theorem filter_templates (htree : disk.IsTree) (h : Grows disk more)
    (hlookUp : disk.lookUp folder = .ok (place, .directory)) (depth : Nat) :
    (more.templates wanted depth folder).filter disk.isThere = disk.templates wanted depth folder := by
  induction depth generalizing folder place with
  | zero => rfl
  | succ depth ih =>
    obtain ⟨hlocate, hdirectory⟩ := lookUp_eq_ok hlookUp
    have hplace : disk.placeOf folder = place := (locate_eq_ok hlocate).2.symm
    have hlookUp' : more.lookUp folder = .ok (place, .directory) :=
      lookUp_of_directory (h.locate_ok hlocate) (h.directory hdirectory)
    have hnew : ∀ entry ∈ more.entries folder, (disk.node? (entry.name :: place)).isSome = false →
        (more.entryTemplates wanted depth folder entry).filter disk.isThere = [] := fun entry hentry hnone =>
      filter_entryTemplates_of_none htree h hlookUp' hentry (by simpa using hnone) depth
    rw [templates_succ, templates_succ, List.filter_flatMap, ← filter_entries htree h hlookUp hlookUp',
      ← flatMap_filter_of_nil hnew, List.flatMap_def, List.flatMap_def]
    apply congrArg List.flatten
    apply List.map_congr_left
    intro entry hmem
    obtain ⟨hentry, hkept⟩ := List.mem_filter.1 hmem
    have hname := isName_of_mem_entries h.tree hentry
    obtain ⟨node, hnode, hkind⟩ := (mem_entries h.tree hlookUp').1 hentry
    cases node with
    | directory =>
      have hnode' : disk.node? (entry.name :: place) = some .directory := h.directory_of_isSome hkept hnode
      rw [entryTemplates_of_directory hkind, entryTemplates_of_directory hkind]
      by_cases hfits : Fits (folder.join ⟨entry.name⟩)
      · exact ih (lookUp_join hname hlookUp hnode' hfits)
      · rw [templates_of_not_fits hfits, templates_of_not_fits hfits]
        rfl
    | file contents time =>
      have hthere : disk.isThere (folder.join ⟨entry.name⟩) = true := by
        rw [isThere, placeOf_join hname.segment hname.ne_dot hname.ne_dotdot, hplace]
        exact hkept
      rw [entryTemplates_of_file hkind, entryTemplates_of_file hkind]
      split
      case isTrue => rw [List.filter_cons_of_pos hthere, List.filter_nil]
      case isFalse => rfl

theorem filter_mem_templates (htree : disk.IsTree) (h : Grows disk more)
    (hlookUp : disk.lookUp folder = .ok (place, .directory)) (depth : Nat) :
    (more.templates wanted depth folder).filter (· ∈ disk.templates wanted depth folder) =
      disk.templates wanted depth folder := by
  have hfilter : (more.templates wanted depth folder).filter disk.isThere = disk.templates wanted depth folder :=
    filter_templates htree h hlookUp depth
  conv_rhs => rw [← hfilter]
  apply List.filter_congr
  intro path hpath
  rw [Bool.eq_iff_iff, decide_eq_true_iff, ← hfilter, List.mem_filter]
  exact ⟨fun hmem => hmem.2, fun hthere => ⟨hpath, hthere⟩⟩

/-! ## What is added below a place -/

/-- A disk has more than another one, all of it below a place. -/
structure AddsBelow (root : Location) (disk more : Disk) : Prop where
  workdir : more.workdir = disk.workdir
  clock : more.clock = disk.clock
  tree : more.IsTree
  others : ∀ place, more.node? place = disk.node? place ∨ disk.node? place = none ∧ root <:+ place

theorem AddsBelow.node_of_some {node : DiskNode} (h : AddsBelow root disk more) (hnode : disk.node? place = some node) :
    more.node? place = some node := by
  rcases h.others place with hsame | ⟨hnone, -⟩
  · rw [hsame, hnode]
  · rw [hnode] at hnone
    cases hnone

theorem AddsBelow.grows (h : AddsBelow root disk more) : Grows disk more where
  workdir := h.workdir
  clock := Nat.le_of_eq h.clock.symm
  tree := h.tree
  directory hnode := h.node_of_some hnode
  file hnode := ⟨_, _, h.node_of_some hnode⟩

/-- Dots lead nowhere else. -/
theorem follow_dots {dir : Location} (hdir : disk.node? dir = some .directory) (n : Nat) (names : List Text) :
    disk.follow dir (List.replicate n ['.'] ++ names) = disk.follow dir names := by
  induction n with
  | zero => rfl
  | succ n ih =>
    rw [List.replicate_succ, List.cons_append, follow, List.foldlM_cons, step_of_directory hdir, if_neg (by simp)]
    exact ih

section

variable (h : disk.CompilesApart cache wanted folder) (hmore : AddsBelow (disk.placeOf folder) disk more)

include h hmore

/-- The disks agree where compiled forms have their places. -/
theorem CompilesApart.node_artifactPlace (source : Path) :
    more.node? (disk.artifactPlace cache source) = disk.node? (disk.artifactPlace cache source) := by
  rcases hmore.others (disk.artifactPlace cache source) with hsame | ⟨hnone, hbelow⟩
  · exact hsame
  · rcases List.suffix_cons_iff.1 hbelow with heq | hsuffix
    · have hdirectory := (lookUp_eq_ok h.lookUp_folder).2
      rw [heq] at hdirectory
      rw [artifactPlace, hdirectory] at hnone
      cases hnone
    · exact absurd hsuffix h.outside

/-- What is added below the folder is not where the paths of compiled forms lead. -/
theorem CompilesApart.stores_more (source : Path) (contents : Contents) (time : Time) :
    (more.store (cache.compiledPath source) contents time).2 =
      (disk.store (cache.compiledPath source) contents time).2 := by
  have hagrees : AgreesOn (fun place => more.node? place = disk.node? place) disk.workdir disk more :=
    ⟨rfl, hmore.workdir, fun _ hplace => hplace⟩
  have hdirectories : ∀ place, disk.node? place = some .directory → more.node? place = disk.node? place :=
    fun place hnode => by rw [hmore.node_of_some hnode, hnode]
  have hdown : ∀ place, place <:+ disk.placeOf cache.dir → more.node? place = disk.node? place := by
    intro place hplace
    rcases hmore.others place with hsame | ⟨-, hbelow⟩
    · exact hsame
    · exact absurd (hbelow.trans hplace) h.outside
  have hsegments := h.places.leaves.leadsThrough h.tree hdirectories hdown
  have hcomponents := h.places.leaves.components.leadsThrough h.tree hdirectories fun place hplace =>
    hdown place (by rwa [placeOf_eq_components])
  rw [Cache.compiledPath_eq]
  refine hagrees.store (Cache.isSegment_artifactName h.places.slash source) (Cache.artifactName_ne_cons source _)
    hcomponents fun front hfront => ?_
  rcases List.prefix_concat_iff.1 hfront with rfl | hfront
  · rw [List.foldl_append, List.foldl_cons, List.foldl_nil, enter, if_neg (Cache.artifactName_ne_cons source _),
      if_neg (Cache.artifactName_ne_cons source _)]
    exact h.node_artifactPlace hmore source
  · exact hsegments front hfront

theorem CompilesApart.lookUp_more (hsource : source ∈ disk.templates wanted depth folder) :
    more.lookUp source = disk.lookUp source := by
  obtain ⟨names, name, -, rfl, hfile⟩ := (mem_templates_of_depth h.tree h.lookUp_folder).1 hsource
  obtain ⟨contents, time, hnode⟩ := hfile.node
  obtain ⟨hname, haround⟩ := h.tree.around hnode
  by_cases hfits : Fits (folder.below (names ++ [name]))
  · rw [Path.below_concat] at hfits ⊢
    obtain ⟨hlocate, hdirectory⟩ := lookUp_eq_ok (lookUp_below h.tree h.lookUp_folder haround hfile.fits)
    have hlocate' := locate_join hname (locate_eq_ok hlocate).1.ne_nil hfits hlocate hdirectory
    rw [lookUp_of_ok hlocate', lookUp_of_ok (hmore.grows.locate_ok hlocate'), hnode, hmore.node_of_some hnode]
  · obtain ⟨error, -, hfails⟩ := exists_error_of_not_fits hfits
    rw [lookUp_of_error (hfails more), lookUp_of_error (hfails disk)]

/-- To a template that was there the disks are the same. -/
theorem CompilesApart.sameFor_more (hsource : source ∈ disk.templates wanted depth folder) :
    SameFor cache source disk more where
  workdir := hmore.workdir
  clock := hmore.clock
  file := h.lookUp_more hmore hsource
  artifact := h.places.lookUp_again (.refl h.tree) hmore.grows (h.node_artifactPlace hmore source)
  stores contents time := h.stores_more hmore source contents time

theorem CompilesApart.of_addsBelow (hown : ((more.templates wanted folderDepth folder).map cache.compiledPath).Nodup) :
    more.CompilesApart cache wanted folder where
  tree := hmore.tree
  directory := hmore.grows.isDirectory h.directory
  places := h.places.grows hmore.grows
  outside := by rw [hmore.grows.placeOf, hmore.grows.placeOf]; exact h.outside
  own := hown

end

end Disk

/-! ## A run over a folder -/

/-- The templates below a folder, in the order of a walk. -/
def Disk.templatesIn (disk : Disk) (extensions : List Text) (folder : Path) : List Path :=
  disk.templates (hasExtension extensions) folderDepth folder

theorem Disk.Sorted.templatesIn {disk : Disk} {folder : Path} (h : disk.Sorted folder) (extensions : List Text) :
    disk.templatesIn extensions folder = (disk.held (disk.placeOf folder)).flatMap
      (disk.entryTemplates (hasExtension extensions) (folderDepth - 1) folder) := by
  have hdepth : folderDepth = folderDepth - 1 + 1 := rfl
  rw [Disk.templatesIn, hdepth, Disk.templates_succ, h.entries]
  rfl

namespace Transpiler

variable {limit : Markers.Limit} {config : Config} {transpiler : Transpiler} {cache : Cache} {disk more : Disk}
  {folder : Path} {extensions : List Text}

/-- What came of each template below a folder in a run over them, and the disk after the run. -/
def runOver (transpiler : Transpiler) (extensions : List Text) (always : Bool) (folder : Path) (disk : Disk) :
    List (Path × Except TranspileError Bool) × Disk :=
  disk.compileEach transpiler always (disk.templatesIn extensions folder)

/-- In a run over a folder each template comes to what it comes to alone, on the disk before the run. -/
structure CompilesAlone (transpiler : Transpiler) (cache : Cache) (extensions : List Text) (always : Bool)
    (folder : Path) (disk : Disk) : Prop where
  /-- Taken are the files below the folder whose names are a stem, a dot and one of the extensions, if the
      path of the directory that they are in can be looked up. -/
  taken (path : Path) : path ∈ disk.templatesIn extensions folder ↔ ∃ names stem extension,
    extension ∈ extensions ∧ stem ≠ [] ∧ path = folder.below (names ++ [stem ++ '.' :: extension]) ∧
      Disk.Fits (folder.below names) ∧ ∃ contents time,
        disk.node? ((stem ++ '.' :: extension) :: (names.reverse ++ disk.placeOf folder)) = some (.file contents time)
  /-- No file is taken twice. -/
  once : ((disk.templatesIn extensions folder).map disk.placeOf).Nodup
  /-- The templates are compiled one after another, and what came of each is noted. -/
  run : (transpiler.compileFolder extensions always folder : StateM Disk Summary) disk =
    (Summary.empty.addAll (transpiler.runOver extensions always folder disk).1,
      (transpiler.runOver extensions always folder disk).2)
  outcomes : (transpiler.runOver extensions always folder disk).1 =
    (disk.templatesIn extensions folder).map fun source => (source, (disk.attempt transpiler always source).1)
  /-- After the run the same is at the path of a compiled form as if the template had been compiled alone. -/
  artifacts : ∀ source ∈ disk.templatesIn extensions folder,
    ((transpiler.runOver extensions always folder disk).2.lookUp (cache.compiledPath source)).toOption =
      ((disk.attempt transpiler always source).2.lookUp (cache.compiledPath source)).toOption
  count : (Summary.empty.addAll (transpiler.runOver extensions always folder disk).1).count =
    (disk.templatesIn extensions folder).length
  /-- The failures are noted in the order of the walk. -/
  failed : (Summary.empty.addAll (transpiler.runOver extensions always folder disk).1).failed =
    (disk.templatesIn extensions folder).filterMap fun source =>
      Summary.failure? (source, (disk.attempt transpiler always source).1)

/-- What is new on a disk changes nothing for the templates that were there. -/
structure LeavesRest (transpiler : Transpiler) (cache : Cache) (extensions : List Text) (always : Bool)
    (folder : Path) (disk more : Disk) : Prop where
  order : (more.templatesIn extensions folder).filter (· ∈ disk.templatesIn extensions folder) =
    disk.templatesIn extensions folder
  outcomes : (transpiler.runOver extensions always folder more).1.filter
      (fun result => result.1 ∈ disk.templatesIn extensions folder) =
    (transpiler.runOver extensions always folder disk).1
  artifacts : ∀ source ∈ disk.templatesIn extensions folder,
    ((transpiler.runOver extensions always folder more).2.lookUp (cache.compiledPath source)).toOption =
      ((transpiler.runOver extensions always folder disk).2.lookUp (cache.compiledPath source)).toOption
  /-- If what is new fails, the summary of a run is the one without it, but for these failures. -/
  summary : (∀ source ∈ more.templatesIn extensions folder, source ∉ disk.templatesIn extensions folder →
      ∃ error, (more.attempt transpiler always source).1 = .error error) →
    ((transpiler.compileFolder extensions always folder : StateM Disk Summary) disk).1 =
      ((transpiler.compileFolder extensions always folder : StateM Disk Summary) more).1.among
        (disk.templatesIn extensions folder)

section

variable (h : disk.CompilesApart cache (hasExtension extensions) folder) (hcache : transpiler.cache = some cache)

include h hcache

theorem compilesAlone_of_apart (always : Bool) : transpiler.CompilesAlone cache extensions always folder disk := by
  obtain ⟨houtcomes, hartifacts⟩ := h.compileEach_alone hcache always
  refine ⟨fun path => ?_, Disk.nodup_templates h.tree h.lookUp_folder _, h.compileFolder hcache always, houtcomes,
    hartifacts, ?_, ?_⟩
  · rw [Disk.templatesIn, Disk.mem_templates_iff h.tree h.lookUp_folder]
    constructor
    · rintro ⟨names, name, rfl, hnode, hwanted, hfits⟩
      obtain ⟨stem, extension, hextension, hstem, rfl⟩ := hasExtension_iff.1 hwanted
      exact ⟨names, stem, extension, hextension, hstem, rfl, hfits, hnode⟩
    · rintro ⟨names, stem, extension, hextension, hstem, rfl, hfits, hnode⟩
      exact ⟨names, _, rfl, hnode, hasExtension_iff.2 ⟨stem, extension, hextension, hstem, rfl⟩, hfits⟩
  · rw [Summary.count_addAll, runOver, Disk.templatesIn, houtcomes, List.length_map]
    exact Nat.zero_add _
  · rw [Summary.failed_addAll, runOver, Disk.templatesIn, houtcomes, List.filterMap_map]
    rfl

theorem leavesRest_of_apart (hmore : Disk.AddsBelow (disk.placeOf folder) disk more)
    (hown : ((more.templatesIn extensions folder).map cache.compiledPath).Nodup) (always : Bool) :
    transpiler.LeavesRest cache extensions always folder disk more := by
  have hafter : more.CompilesApart cache (hasExtension extensions) folder := h.of_addsBelow hmore hown
  have halone := compilesAlone_of_apart h hcache always
  have hlater := compilesAlone_of_apart hafter hcache always
  have horder : (more.templatesIn extensions folder).filter (· ∈ disk.templatesIn extensions folder) =
      disk.templatesIn extensions folder := Disk.filter_mem_templates h.tree hmore.grows h.lookUp_folder _
  have hsame : ∀ source ∈ disk.templatesIn extensions folder, Disk.SameFor cache source disk more :=
    fun source hsource => h.sameFor_more hmore hsource
  have houtcomes : (transpiler.runOver extensions always folder more).1.filter
      (fun result => result.1 ∈ disk.templatesIn extensions folder) =
        (transpiler.runOver extensions always folder disk).1 := by
    rw [hlater.outcomes, halone.outcomes, List.filter_map]
    conv_rhs => rw [← horder]
    refine List.map_congr_left fun source hsource => ?_
    have hmem := of_decide_eq_true (List.mem_filter.1 hsource).2
    rw [(hsame source hmem).attempt_fst hcache]
  refine ⟨horder, houtcomes, fun source hsource => ?_, fun hfails => ?_⟩
  · have hmem : source ∈ more.templatesIn extensions folder := by
      rw [← horder] at hsource
      exact (List.mem_filter.1 hsource).1
    rw [hlater.artifacts source hmem, halone.artifacts source hsource]
    exact (hsame source hsource).lookUp_attempt h.places h.tree hafter.places hafter.tree hcache always
  · rw [halone.run, hlater.run, ← houtcomes]
    refine Summary.addAll_among (fun result hresult hnew => ?_) .empty
    rw [hlater.outcomes] at hresult
    obtain ⟨source, hsource, rfl⟩ := List.mem_map.1 hresult
    exact hfails source hsource hnew

end

/-- A template that fails does not affect the others. In a run over a folder each template comes to what it
    comes to alone, and new templates change nothing for those that are there: if compiled forms are kept
    outside the folder, each at a path of its own, and each name that leads up in the path to them leads
    out of a directory that is there. -/
theorem compileFolder_alone (hcreate : Transpiler.create limit config = .ok transpiler)
    (hcache : transpiler.cache = some cache) (htree : disk.IsTree) (hfolder : disk.isDirectory folder = true)
    (houtside : ¬ disk.placeOf folder <:+ disk.placeOf cache.dir)
    (hleaves : disk.LeavesDirectories (disk.start cache.dir.isAbsolute) cache.dir.segments)
    (hown : ((disk.templatesIn extensions folder).map cache.compiledPath).Nodup) (always : Bool) :
    transpiler.CompilesAlone cache extensions always folder disk ∧
      ∀ more, Disk.AddsBelow (disk.placeOf folder) disk more →
        ((more.templatesIn extensions folder).map cache.compiledPath).Nodup →
          transpiler.LeavesRest cache extensions always folder disk more := by
  obtain ⟨-, -, hslash, -⟩ := Transpiler.cache_of_create hcreate hcache
  have hapart : disk.CompilesApart cache (hasExtension extensions) folder :=
    ⟨htree, hfolder, ⟨hslash, hleaves⟩, houtside, hown⟩
  exact ⟨compilesAlone_of_apart hapart hcache always,
    fun more hmore hownmore => leavesRest_of_apart hapart hcache hmore hownmore always⟩

/-! ## A run that goes wrong for some -/

open CommandLine (diskWith isTree_diskWith configWith)

/-- A disk with a template that is cut off and another one. -/
def brokenDisk : Disk :=
  diskWith [(.ofString "views/c.php", "\x7b\x7b $c".toList, 1), (.ofString "views/b.php", "b".toList, 1)]

/-- The disk with one more template that is cut off. -/
def worseDisk : Disk := (brokenDisk.store (.ofString "views/a.php") (.text "\x7b\x7b $a".toList) 1).1

theorem worseDisk_addsBelow : Disk.AddsBelow ["views".toList, "shop".toList] brokenDisk worseDisk := by
  have hput : worseDisk = brokenDisk.put ["a.php".toList, "views".toList, "shop".toList]
      (.file (.text "\x7b\x7b $a".toList) 1) := by rfl
  refine ⟨rfl, rfl, (Disk.store_growsAt (isTree_diskWith _) ..).tree, fun place => ?_⟩
  rw [hput, Disk.node?_put]
  split
  case isTrue heq => exact .inr (heq ▸ ⟨by decide, List.suffix_cons _ _⟩)
  case isFalse => exact .inl rfl

/-- The template that is cut off fails and the other one is compiled, with one more that fails or without. -/
theorem compileFolder_alone_brokenDisk :
    ∃ transpiler, Transpiler.create Markers.standardLimit (configWith "cache" "php").transpiler = .ok transpiler ∧
      transpiler.CompilesAlone ⟨.ofString "cache", "php".toList⟩ ["php".toList] false (.ofString "views") brokenDisk ∧
      transpiler.LeavesRest ⟨.ofString "cache", "php".toList⟩ ["php".toList] false (.ofString "views") brokenDisk
        worseDisk ∧
      ((transpiler.compileFolder ["php".toList] false (.ofString "views") : StateM Disk Summary) brokenDisk).1 =
        ⟨1, 0, [(.ofString "views/c.php", .unterminatedTag .regularEcho 0)]⟩ := by
  have hsorted : brokenDisk.Sorted (.ofString "views") ∧ worseDisk.Sorted (.ofString "views") := by decide
  have hplaces : brokenDisk.isDirectory (.ofString "views") = true ∧
      ¬ brokenDisk.placeOf (.ofString "views") <:+ brokenDisk.placeOf (.ofString "cache") ∧
      brokenDisk.LeavesDirectories (brokenDisk.start false) (Path.ofString "cache").segments := by decide
  have hown : ((brokenDisk.templatesIn ["php".toList] (.ofString "views")).map
        (Cache.compiledPath ⟨.ofString "cache", "php".toList⟩)).Nodup ∧
      ((worseDisk.templatesIn ["php".toList] (.ofString "views")).map
        (Cache.compiledPath ⟨.ofString "cache", "php".toList⟩)).Nodup := by
    rw [hsorted.1.templatesIn, hsorted.2.templatesIn]
    decide +kernel
  obtain ⟨transpiler, hcreate, hcache, hresults⟩ : ∃ transpiler,
      Transpiler.create Markers.standardLimit (configWith "cache" "php").transpiler = .ok transpiler ∧
        transpiler.cache = some ⟨.ofString "cache", "php".toList⟩ ∧
        ((brokenDisk.templatesIn ["php".toList] (.ofString "views")).map fun source =>
            (source, (brokenDisk.attempt transpiler false source).1)) =
          [(.ofString "views/b.php", .ok true),
            (.ofString "views/c.php", .error (.unterminatedTag .regularEcho 0))] := by
    refine ⟨_, rfl, rfl, ?_⟩
    rw [hsorted.1.templatesIn]
    decide +kernel
  have htree : brokenDisk.IsTree := isTree_diskWith _
  obtain ⟨halone, hrest⟩ := compileFolder_alone hcreate hcache htree hplaces.1 hplaces.2.1 hplaces.2.2 hown.1 false
  refine ⟨transpiler, hcreate, halone, hrest worseDisk worseDisk_addsBelow hown.2, ?_⟩
  rw [halone.run, halone.outcomes, hresults]
  rfl

/-- A disk with two templates, and a file newer than the second one in the place of its compiled form. -/
def lateDisk : Disk :=
  diskWith [(.ofString "views/b.php", "b".toList, 1), (.ofString "views/a.php", "a".toList, 1),
    (.ofString "cache/06a6f3c938e8c45ed8ac0aabbc01956732afb059cad0cfbc084cd530d40f59bc.php", "b".toList, 2)]

/-- A disk with a template in a directory of a folder. -/
def nestedDisk : Disk := diskWith [(.ofString "views/sub/a.php", "a".toList, 1)]

/-- A path of the folder that is almost as long as a path can be. -/
def longWay : Path := .ofComponents false (List.replicate 2044 ['.'] ++ ["views".toList])

theorem lookUp_longWay : nestedDisk.lookUp longWay = .ok (["views".toList, "shop".toList], .directory) := by
  have htext : '\x00' ∉ longWay.text ∧ longWay.text ≠ [] ∧ Text.byteLength longWay.text < Disk.pathLimit := by
    decide +kernel
  have hsegments : ∀ s ∈ List.replicate 2044 ['.'] ++ ["views".toList], Path.IsSegment s := by
    intro s hs
    rcases List.mem_append.1 hs with hdot | hname
    · rw [List.eq_of_mem_replicate hdot]
      exact ⟨by decide, by decide⟩
    · rw [List.mem_singleton.1 hname]
      exact ⟨by decide, by decide⟩
  have hviews : nestedDisk.follow (nestedDisk.start false) ["views".toList] = .ok ["views".toList, "shop".toList] ∧
      nestedDisk.node? ["views".toList, "shop".toList] = some .directory := by decide
  have htree : nestedDisk.IsTree := isTree_diskWith _
  refine Disk.lookUp_of_directory ?_ hviews.2
  rw [Disk.locate_of_fits ⟨htext.1, htext.2.1, htext.2.2⟩, longWay, Path.segments_ofComponents hsegments,
    Path.isAbsolute_ofComponents hsegments, Disk.follow_dots (htree.start false)]
  exact hviews.1

theorem placeOf_longWay : nestedDisk.placeOf longWay = ["views".toList, "shop".toList] :=
  (Disk.locate_eq_ok (Disk.lookUp_eq_ok lookUp_longWay).1).2.symm

/-- The path of the directory in the folder is too long, so the template in it is not met. -/
theorem templatesIn_longWay : nestedDisk.templatesIn ["php".toList] longWay = [] := by
  have hheld : nestedDisk.held ["views".toList, "shop".toList] = [⟨"sub".toList, true⟩] := by decide
  have hsorted : nestedDisk.Sorted longWay := by
    rw [Disk.Sorted, placeOf_longWay, hheld]
    exact ⟨lookUp_longWay, List.pairwise_singleton _ _⟩
  have hlong : ¬ Disk.Fits (longWay.join ⟨"sub".toList⟩) :=
    fun hfits => absurd hfits.length (by decide +kernel)
  rw [hsorted.templatesIn, placeOf_longWay, hheld, List.flatMap_singleton, Disk.entryTemplates, if_pos rfl]
  exact Disk.templates_of_not_fits hlong _

/-- A compiled form that is found only once its path leads somewhere makes up for compiling a template. And a
    template in a directory with too long a path is not met. -/
theorem compileFolder_alone_ne :
    (∃ transpiler, Transpiler.create Markers.standardLimit (configWith "new/../cache" "php").transpiler =
        .ok transpiler ∧
      transpiler.cache = some ⟨.ofString "new/../cache", "php".toList⟩ ∧
      lateDisk.IsTree ∧ lateDisk.isDirectory (.ofString "views") = true ∧
      ¬ lateDisk.placeOf (.ofString "views") <:+ lateDisk.placeOf (.ofString "new/../cache") ∧
      ((lateDisk.templatesIn ["php".toList] (.ofString "views")).map
        (Cache.compiledPath ⟨.ofString "new/../cache", "php".toList⟩)).Nodup ∧
      (∀ source ∈ lateDisk.templatesIn ["php".toList] (.ofString "views"),
        (lateDisk.attempt transpiler false source).1 = .ok true) ∧
      ((transpiler.compileFolder ["php".toList] false (.ofString "views") : StateM Disk Summary) lateDisk).1 =
        ⟨1, 1, []⟩) ∧
    ∃ transpiler, Transpiler.create Markers.standardLimit (configWith "cache" "php").transpiler = .ok transpiler ∧
      transpiler.cache = some ⟨.ofString "cache", "php".toList⟩ ∧
      nestedDisk.IsTree ∧ nestedDisk.isDirectory longWay = true ∧
      ¬ nestedDisk.placeOf longWay <:+ nestedDisk.placeOf (.ofString "cache") ∧
      nestedDisk.node? ("a.php".toList :: "sub".toList :: nestedDisk.placeOf longWay) =
        some (.file (.text "a".toList) 1) ∧
      nestedDisk.templatesIn ["php".toList] longWay = [] ∧
      ((transpiler.compileFolder ["php".toList] false longWay : StateM Disk Summary) nestedDisk).1 = ⟨0, 0, []⟩ := by
  constructor
  · have hsorted : lateDisk.Sorted (.ofString "views") := by decide
    have hdepth : folderDepth = folderDepth - 1 + 1 := rfl
    refine ⟨_, rfl, rfl, isTree_diskWith _, ?_⟩
    rw [hsorted.templatesIn, compileFolder_eq, hdepth, hsorted.visit]
    decide +kernel
  · have htree : nestedDisk.IsTree := isTree_diskWith _
    have hdirectory : nestedDisk.isDirectory longWay = true := by rw [Disk.isDirectory, lookUp_longWay]
    have hplaces : ¬ ["views".toList, "shop".toList] <:+ nestedDisk.placeOf (.ofString "cache") ∧
        nestedDisk.node? ("a.php".toList :: "sub".toList :: ["views".toList, "shop".toList]) =
          some (.file (.text "a".toList) 1) ∧
        nestedDisk.LeavesDirectories (nestedDisk.start false) (Path.ofString "cache").segments := by decide
    rw [placeOf_longWay]
    refine ⟨_, rfl, rfl, htree, hdirectory, hplaces.1, hplaces.2.1, templatesIn_longWay, ?_⟩
    have hapart : nestedDisk.CompilesApart ⟨.ofString "cache", "php".toList⟩ (hasExtension ["php".toList]) longWay := by
      refine ⟨htree, hdirectory, ⟨by decide, hplaces.2.2⟩, ?_, ?_⟩
      · rw [placeOf_longWay]
        exact hplaces.1
      · change ((nestedDisk.templatesIn ["php".toList] longWay).map _).Nodup
        rw [templatesIn_longWay]
        exact List.nodup_nil
    rw [(compilesAlone_of_apart hapart rfl false).run, runOver, templatesIn_longWay]
    rfl

end Transpiler

end Template
