import Template.Proofs.Lookup
import Template.Proofs.PathSegments
import Template.Proofs.ViewName

/-! # Places below a directory

The file of a view is the directory it is searched in, followed by the parts of the view. This
holds while the view part of the name begins with a part: a dot or a slash at its beginning stands
for the root, and what is spelled from the root is tried as it is, without the directory.
-/

namespace Template

namespace Text

variable {d : Char} {t : Text}

/-- The last `d` of a text has no other after it. -/
theorem exists_last (h : d ∈ t) : ∃ front back, t = front ++ d :: back ∧ d ∉ back := by
  obtain ⟨back, front, hcut, hback⟩ := List.eq_append_cons_of_mem (List.mem_reverse.2 h)
  refine ⟨front.reverse, back.reverse, ?_, by simpa using hback⟩
  simpa using congrArg List.reverse hcut

/-- Of the pieces of a text only the one with the extension can be two dots. -/
theorem dotdot_mem_splitOn {stem extension : Text} (hstem : '.' ∉ stem) (hext : '/' ∉ extension) :
    ['.', '.'] ∈ splitOn '/' (stem ++ '.' :: extension) ↔
      extension = ['.'] ∧ (stem = [] ∨ stem.getLast? = some '/') := by
  have hpiece : ∀ back : Text, '.' ∉ back → (['.', '.'] = back ++ '.' :: extension ↔
      extension = ['.'] ∧ back = []) := by
    intro back hback
    cases back with
    | nil => simp [eq_comm]
    | cons c back =>
      have hne : '.' ≠ c := by grind
      simp [hne]
  by_cases hslash : '/' ∈ stem
  case neg =>
    have hwhole : '/' ∉ stem ++ '.' :: extension := by simp [hslash, hext]
    rw [splitOn_of_not_mem hwhole, List.mem_singleton, hpiece stem hstem,
      or_iff_left fun hlast => hslash (List.mem_of_getLast? hlast)]
  case pos =>
    obtain ⟨front, back, rfl, hback⟩ := exists_last hslash
    have hwhole : '/' ∉ back ++ '.' :: extension := by simp [hback, hext]
    have hends : (front ++ '/' :: back = [] ∨ (front ++ '/' :: back).getLast? = some '/') ↔ back = [] := by
      rw [or_iff_right (by simp), List.getLast?_append, List.getLast?_cons, Option.some_or, Option.some.injEq]
      cases hlast : back.getLast? with
      | none => simp [List.getLast?_eq_none_iff.1 hlast]
      | some c =>
        have hc : c ∈ back := List.mem_of_getLast? hlast
        grind
    have hfront : ['.', '.'] ∉ splitOn '/' front := by
      intro hmem
      have hdot : '.' ∈ front := mem_of_mem_splitOn hmem (by simp)
      simp [hdot] at hstem
    rw [List.append_assoc, List.cons_append, splitOn_append_cons, splitOn_of_not_mem hwhole, List.mem_append, List.mem_singleton,
      hpiece back (by grind), hends]
    simp [hfront]

end Text

namespace Path

variable {dir place relative : Path}

/-- The place is a path of the directory: one slash comes after the directory, none when it is
    empty or ends in one, and then a path that is not absolute and never goes up. -/
def StaysBelow (place dir : Path) : Prop :=
  ∃ rest : Path, rest.isAbsolute = false ∧ ['.', '.'] ∉ rest.components ∧
    place.text = dir.text ++ (if dir.text = [] ∨ dir.text.getLast? = some '/' then [] else ['/']) ++ rest.text

theorem dotdot_mem_components : ['.', '.'] ∈ place.components ↔ ['.', '.'] ∈ Text.splitOn '/' place.text := by
  have hkept : ∀ pieces : List Text, ['.', '.'] ∈ pieces.filter (· ≠ ['.']) ↔ ['.', '.'] ∈ pieces := by
    intro pieces
    simp
  have hsegments : ['.', '.'] ∈ place.segments ↔ ['.', '.'] ∈ Text.splitOn '/' place.text := by
    simp [segments]
  unfold components
  split
  case h_1 rest _ hrest =>
    rw [← hsegments, hrest, List.mem_cons, List.mem_cons, hkept]
  case h_2 => rw [hkept, hsegments]

theorem join_text (h : relative.isAbsolute = false) : (dir.join relative).text =
    dir.text ++ (if dir.text = [] ∨ dir.text.getLast? = some '/' then [] else ['/']) ++ relative.text := by
  simp only [join, h, Bool.false_eq_true, if_false, Bool.or_eq_true, decide_eq_true_eq, beq_iff_eq]
  split <;> simp

/-- Joined to any directory a path stays below it exactly when it is not absolute and never goes up. -/
theorem forall_join_staysBelow_iff : (∀ dir : Path, (dir.join relative).StaysBelow dir) ↔
    relative.isAbsolute = false ∧ ['.', '.'] ∉ relative.components := by
  constructor
  · intro h
    -- Below the empty directory nothing is put in front of the path.
    obtain ⟨rest, hrelative, hup, htext⟩ := h ⟨[]⟩
    have hjoin : (join ⟨[]⟩ relative) = relative := by
      unfold join
      split <;> rfl
    have hrest : relative = rest := by
      rw [hjoin] at htext
      cases relative
      cases rest
      simpa using htext
    exact ⟨hrest ▸ hrelative, hrest ▸ hup⟩
  · intro h dir
    exact ⟨relative, h.1, h.2, join_text h.1⟩

end Path

namespace ViewName

variable {view extension : Text}

/-- The file of a view, from the directory it is searched in. -/
def file (view extension : Text) : Path := ⟨relativePath view ++ '.' :: extension⟩

/-- The view part begins with a part of the view, and it ends with one where the extension would
    go up. -/
def StaysInside (view extension : Text) : Prop :=
  (view.head? ≠ some '.' ∧ view.head? ≠ some '/') ∧
    (extension = ['.'] → view ≠ [] ∧ view.getLast? ≠ some '.' ∧ view.getLast? ≠ some '/')

instance : Decidable (StaysInside view extension) := inferInstanceAs (Decidable (_ ∧ _))

theorem dot_not_mem_relativePath (view : Text) : '.' ∉ relativePath view := by
  simp only [relativePath, Text.replaceChar, List.mem_map, not_exists, not_and]
  intro c _
  split <;> grind

theorem isAbsolute_file : (file view extension).isAbsolute = false ↔
    view.head? ≠ some '.' ∧ view.head? ≠ some '/' := by
  cases view with
  | nil => simp [Path.isAbsolute, file, relativePath, Text.replaceChar]
  | cons c view =>
    simp only [Path.isAbsolute, file, relativePath, Text.replaceChar]
    grind

theorem ends_relativePath : (relativePath view = [] ∨ (relativePath view).getLast? = some '/') ↔
    view = [] ∨ view.getLast? = some '.' ∨ view.getLast? = some '/' := by
  simp only [relativePath, Text.replaceChar, List.getLast?_map, List.map_eq_nil_iff]
  cases view.getLast? with
  | none => simp
  | some c =>
    simp only [Option.map_some, Option.some.injEq]
    split <;> grind

/-- A file goes up only by its last part: the view must end before it, and the extension is the
    second dot. -/
theorem dotdot_mem_components_file (hext : '/' ∉ extension) :
    ['.', '.'] ∈ (file view extension).components ↔
      extension = ['.'] ∧ (view = [] ∨ view.getLast? = some '.' ∨ view.getLast? = some '/') := by
  rw [Path.dotdot_mem_components, file, Text.dotdot_mem_splitOn (dot_not_mem_relativePath view) hext,
    ends_relativePath]

/-- A view's file stays below every directory it is searched in, or else a directory is left. -/
theorem forall_join_file_staysBelow_iff (hext : '/' ∉ extension) :
    (∀ dir : Path, (dir.join (file view extension)).StaysBelow dir) ↔ StaysInside view extension := by
  rw [Path.forall_join_staysBelow_iff, isAbsolute_file, dotdot_mem_components_file hext, StaysInside]
  simp only [not_and, not_or, ne_eq]

end ViewName

namespace SearchPlaces

/-- What a name has searched: a view in a directory. A name in a namespace has the directories of
    the namespace, another name the search paths. -/
inductive Searches (places : SearchPlaces) : (name view : Text) → (dir : Path) → Prop where
  | plain {name : Text} {dir : Path} (hname : ViewName.hasHint name = false) (hdir : dir ∈ places.paths) :
      Searches places name name dir
  | hinted {name scope view : Text} {dirs : List Path} {dir : Path}
      (hname : ViewName.splitHint name = .ok (scope, view))
      (hscope : places.hints.find? scope = some dirs) (hdir : dir ∈ dirs) :
      Searches places name view dir

/-- A place answers a name when the search gives it or tries it in vain. -/
inductive Tries : Except ViewError Path → Path → Prop where
  | found {place : Path} : Tries (.ok place) place
  | missed {name : Text} {tried : List Path} {place : Path} (hplace : place ∈ tried) :
      Tries (.error (.notFound name tried)) place

variable {places : SearchPlaces} {present : Path → Bool} {name view : Text} {dirs : List Path} {place : Path}

theorem exists_of_search (h : Tries (places.search present name view dirs) place) :
    ∃ dir ∈ dirs, ∃ extension ∈ places.extensions, place = dir.join (ViewName.file view extension) := by
  have hplace : place ∈ dirs.flatMap fun dir => places.extensions.map fun extension =>
      dir.join (ViewName.file view extension) := by
    unfold search at h
    dsimp only at h
    split at h
    case h_1 found hfound =>
      cases h
      exact List.mem_of_find?_eq_some hfound
    case h_2 =>
      cases h with
      | missed hplace => exact hplace
  obtain ⟨dir, hdir, hfile⟩ := List.mem_flatMap.1 hplace
  obtain ⟨extension, hextension, hjoin⟩ := List.mem_map.1 hfile
  exact ⟨dir, hdir, extension, hextension, hjoin.symm⟩

/-- Every place is the file of a view in a directory that the name has searched, whether the name is
    written with dots or with slashes. -/
theorem exists_of_plainLookUp (h : Tries (places.plainLookUp present name) place) :
    ∃ view dir extension, places.Searches name view dir ∧ extension ∈ places.extensions ∧
      place = dir.join (ViewName.file view extension) := by
  have hfile : ∀ view extension, ViewName.file (Text.replaceChar '/' '.' view) extension =
      ViewName.file view extension := by
    intro view extension
    rw [ViewName.file, ViewName.relativePath_replaceChar, ViewName.file]
  unfold plainLookUp lookUp at h
  rw [ViewName.hasHint_normalize, ViewName.splitHint_normalize] at h
  cases hhint : ViewName.hasHint name with
  | false =>
    rw [hhint, if_neg Bool.false_ne_true] at h
    obtain ⟨dir, hdir, extension, hextension, hplace⟩ := exists_of_search h
    rw [ViewName.normalize_of_not_hasHint hhint, hfile] at hplace
    exact ⟨name, dir, extension, .plain hhint hdir, hextension, hplace⟩
  | true =>
    rw [hhint, if_pos rfl] at h
    cases hname : ViewName.splitHint name with
    | error error =>
      rw [hname] at h
      nomatch h
    | ok hinted =>
      obtain ⟨scope, view⟩ := hinted
      rw [hname] at h
      dsimp only at h
      cases hscope : places.hints.find? scope with
      | none =>
        rw [hscope] at h
        nomatch h
      | some dirs =>
        rw [hscope] at h
        obtain ⟨dir, hdir, extension, hextension, hplace⟩ := exists_of_search h
        rw [hfile] at hplace
        exact ⟨view, dir, extension, .hinted hname hscope hdir, hextension, hplace⟩

end SearchPlaces

namespace Lookups

/-- Every place an answer names, found or tried in vain, is the file of a view in a directory that the
    name has searched. It stays below the directory when the view part begins with a part of the view
    (and ends with one under the extension `.`); of another view part some directory does not keep
    the file. -/
theorem ask_staysBelow (paths : List Path) (hints : Table Text (List Path)) (extensions : List Text)
    (memory : Memory) (journal : Journal) (name : Text) (hext : ∀ extension ∈ extensions, '/' ∉ extension) :
    let places : SearchPlaces := ⟨paths, hints, extensions⟩
    let lookups : Lookups := ⟨⟨paths, hints, extensions, .empty⟩, memory, journal⟩
    (∀ place, SearchPlaces.Tries (lookups.ask name).1 place →
      ∃ view dir extension, places.Searches name view dir ∧ extension ∈ extensions ∧
        place = dir.join (ViewName.file view extension) ∧
        (ViewName.StaysInside view extension → place.StaysBelow dir)) ∧
    ∀ view, ∀ extension ∈ extensions,
      (∀ dir : Path, (dir.join (ViewName.file view extension)).StaysBelow dir) ↔
        ViewName.StaysInside view extension := by
  intro places lookups
  constructor
  · intro place hplace
    have hempty : lookups.Remembers := fun _ _ hfound => by
      cases hfound
    rw [hempty.ask_eq] at hplace
    obtain ⟨view, dir, extension, hsearches, hextension, hjoin⟩ :=
      SearchPlaces.exists_of_plainLookUp hplace
    refine ⟨view, dir, extension, hsearches, hextension, hjoin, ?_⟩
    intro hinside
    rw [hjoin]
    exact (ViewName.forall_join_file_staysBelow_iff (hext extension hextension)).2 hinside dir
  · intro view extension hextension
    exact ViewName.forall_join_file_staysBelow_iff (hext extension hextension)

/-- A finder with a search path and a namespace. -/
def mailLookups : Lookups :=
  ⟨⟨[.ofString "views"], Table.empty.insert "mail".toList [.ofString "mails/"], defaultExtensions, .empty⟩,
    Memory.empty.put (.ofString "mails/admin/welcome.php") [] 0, []⟩

/-- The place of a view in a namespace is below the directory of the namespace. -/
theorem ask_staysBelow_mailLookups :
    (mailLookups.ask "mail::admin/welcome".toList).1 = .ok (.ofString "mails/admin/welcome.php") ∧
      (Path.ofString "mails/admin/welcome.php").StaysBelow (.ofString "mails/") := by
  have hfound : (mailLookups.ask "mail::admin/welcome".toList).1 =
      .ok (.ofString "mails/admin/welcome.php") := by decide +kernel
  have hsplit : ViewName.splitHint "mail::admin/welcome".toList =
      .ok ("mail".toList, "admin/welcome".toList) := by decide +kernel
  have hmail : mailLookups.finder.hints.find? "mail".toList = some [.ofString "mails/"] := by
    decide +kernel
  have hinside : ∀ extension ∈ defaultExtensions,
      ViewName.StaysInside "admin/welcome".toList extension := by decide +kernel
  obtain ⟨hplaces, -⟩ := ask_staysBelow mailLookups.finder.paths mailLookups.finder.hints defaultExtensions
    mailLookups.memory [] "mail::admin/welcome".toList (by decide)
  obtain ⟨view, dir, extension, hsearches, hextension, -, hbelow⟩ :=
    hplaces (.ofString "mails/admin/welcome.php") (hfound ▸ .found)
  refine ⟨hfound, ?_⟩
  cases hsearches with
  | plain hname => exact absurd hname (by decide +kernel)
  | hinted hname hscope hdir =>
    rw [hsplit] at hname
    cases hname
    cases hmail.symm.trans hscope
    cases List.mem_singleton.1 hdir
    exact hbelow (hinside extension hextension)

/-- A view that begins with a slash is read from the root, below no directory of the finder. -/
theorem ask_leaves_directories :
    let lookups : Lookups := ⟨.ofPaths [.ofString "views"],
      Memory.empty.put (.ofString "/etc/passwd.php") [] 0, []⟩
    (lookups.ask "/etc/passwd".toList).1 = .ok (.ofString "/etc/passwd.php") ∧
      ∀ dir ∈ lookups.finder.paths, ¬ (Path.ofString "/etc/passwd.php").StaysBelow dir := by
  refine ⟨by decide +kernel, ?_⟩
  intro dir hdir hbelow
  cases List.mem_singleton.1 hdir
  obtain ⟨rest, -, -, htext⟩ := hbelow
  have hhead := congrArg List.head? htext
  simp at hhead

end Lookups

end Template
