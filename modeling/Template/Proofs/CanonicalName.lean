import Mathlib.Control.Monad.Basic
import Template.Proofs.Lookup
import Template.Proofs.ViewName

/-! # Normal forms of view names

Two names have the same normal form exactly when they ask for the same relative path in the same namespace.
So a finder that remembers places by normal form gives every name what a search for it, as it is written,
would give.
-/

namespace Template

namespace ViewName

variable {name other scope view : Text}

/-- The namespace that is written in a name, up to its first mark. -/
def scope? (name : Text) : Option Text := (Text.cut? delimiter name).map Prod.fst

/-- What is searched for: the view part behind the first mark, or the whole name. -/
def searched (name : Text) : Text := ((Text.cut? delimiter name).map Prod.snd).getD name

theorem normalize_eq (name : Text) : normalize name =
    match scope? name with
    | some scope => scope ++ delimiter ++ Text.replaceChar '/' '.' (searched name)
    | none => Text.replaceChar '/' '.' (searched name) := by
  unfold normalize scope? searched
  cases Text.cut? delimiter name <;> rfl

theorem scope?_normalize (name : Text) : scope? (normalize name) = scope? name := by
  unfold scope?
  rw [cut?_normalize, Option.map_map]
  rfl

theorem searched_normalize (name : Text) :
    searched (normalize name) = Text.replaceChar '/' '.' (searched name) := by
  unfold searched
  rw [cut?_normalize]
  cases hcut : Text.cut? delimiter name with
  | none => simp only [normalize, hcut, Option.map_none, Option.getD_none]
  | some found => rfl

theorem searched_of_splitHint (h : splitHint name = .ok (scope, view)) : searched name = view := by
  unfold splitHint at h
  unfold searched
  split at h
  case h_1 before after hcut =>
    split at h
    · cases h
    · cases h
      rw [hcut]
      rfl
  case h_2 => cases h

theorem splitHint_eq_error {error : ViewError} (h : splitHint name = .error error) : error = .invalidName name := by
  unfold splitHint at h
  split at h
  case h_1 =>
    split at h <;> cases h
    rfl
  case h_2 =>
    cases h
    rfl

/-- The path of a view has its dots where the view has dots or slashes. -/
theorem replaceChar_relativePath (view : Text) :
    Text.replaceChar '/' '.' (relativePath view) = Text.replaceChar '/' '.' view := by
  unfold relativePath Text.replaceChar
  rw [List.map_map]
  apply List.map_congr_left
  intro c _
  rw [Function.comp_apply]
  split
  case isTrue hdot =>
    rw [hdot]
    decide
  case isFalse => rfl

theorem relativePath_searched_normalize (name : Text) :
    relativePath (searched (normalize name)) = relativePath (searched name) := by
  rw [searched_normalize, relativePath_replaceChar]

/-- The normal form tells the namespace and the relative path, and nothing more. -/
theorem normalize_eq_normalize_iff : normalize other = normalize name ↔
    scope? other = scope? name ∧ relativePath (searched other) = relativePath (searched name) := by
  constructor
  · intro h
    rw [← scope?_normalize other, ← relativePath_searched_normalize other, h]
    exact ⟨scope?_normalize name, relativePath_searched_normalize name⟩
  · rintro ⟨hscope, hpath⟩
    rw [normalize_eq, normalize_eq, hscope, ← replaceChar_relativePath (searched other), hpath,
      replaceChar_relativePath]

end ViewName

namespace Finder

/-- The places where a name is looked for, in their order, for the name as it is written. -/
def placesOf (finder : Finder) (name : Text) : Except ViewError (List Path) :=
  (finder.request name).map fun (view, dirs) => finder.candidates view dirs

theorem candidates_replaceChar (finder : Finder) (view : Text) (dirs : List Path) :
    finder.candidates (Text.replaceChar '/' '.' view) dirs = finder.candidates view dirs := by
  unfold candidates fileNames
  rw [ViewName.relativePath_replaceChar]

/-- A name and its normal form ask for the same view in the same directories, or fail alike. -/
theorem request_normalize (finder : Finder) (name : Text) : finder.request (ViewName.normalize name) =
    match finder.request name with
    | .ok (view, dirs) => .ok (Text.replaceChar '/' '.' view, dirs)
    | .error (.invalidName _) => .error (.invalidName (ViewName.normalize name))
    | .error error => .error error := by
  unfold request
  rw [ViewName.hasHint_normalize]
  cases hhint : ViewName.hasHint name with
  | false =>
    rw [ViewName.normalize_of_not_hasHint hhint]
    rfl
  | true =>
    rw [if_pos rfl, if_pos rfl, ViewName.splitHint_normalize]
    cases hsplit : ViewName.splitHint name with
    | error error =>
      rw [ViewName.splitHint_eq_error hsplit]
      rfl
    | ok hinted =>
      obtain ⟨scope, view⟩ := hinted
      simp only [bind, Except.bind]
      cases finder.hints.find? scope <;> rfl

theorem placesOf_normalize (finder : Finder) (name : Text) : finder.placesOf (ViewName.normalize name) =
    match finder.placesOf name with
    | .error (.invalidName _) => .error (.invalidName (ViewName.normalize name))
    | places => places := by
  unfold placesOf
  rw [request_normalize]
  cases finder.request name with
  | error error => cases error <;> rfl
  | ok request =>
    change Except.ok (finder.candidates (Text.replaceChar '/' '.' request.1) request.2) = _
    rw [candidates_replaceChar]
    rfl

theorem placesOf_normalize_eq_ok_iff (finder : Finder) (name : Text) (places : List Path) :
    finder.placesOf (ViewName.normalize name) = .ok places ↔ finder.placesOf name = .ok places := by
  rw [placesOf_normalize]
  cases finder.placesOf name with
  | ok => rfl
  | error error => cases error <;> simp

/-- A view is found at the first of its places at which something is. -/
theorem lookUp_places_eq_ok_iff (finder : Finder) (present : Path → Bool) (name : Text) (place : Path) :
    finder.places.lookUp present name = .ok place ↔
      ∃ places, finder.placesOf name = .ok places ∧ places.find? present = some place := by
  rw [lookUp_places]
  unfold placesOf
  cases finder.request name with
  | error error => simp [Except.map]
  | ok request =>
    dsimp only
    rw [search_places]
    cases hfind : (finder.candidates request.1 request.2).find? present <;> simp [Except.map, hfind]

end Finder

namespace ViewName

/-- A normal form is its own normal form. It has the namespace of the name, if there is one, and its view
    part with dots for the slashes, so the same relative path is searched for. Names with the same normal
    form are those with the same namespace and relative path; they are looked for in the same places, and
    a finder that remembers rightly answers a name with the place where the name, as it is written, is
    found. -/
theorem normalize_canonical (name : Text) :
    normalize (normalize name) = normalize name ∧
    hasHint (normalize name) = hasHint name ∧
    (∀ scope dotted, splitHint (normalize name) = .ok (scope, dotted) ↔
      ∃ view, splitHint name = .ok (scope, view) ∧ searched name = view ∧
        dotted = Text.replaceChar '/' '.' view) ∧
    relativePath (searched (normalize name)) = relativePath (searched name) ∧
    (∀ other, normalize other = normalize name ↔
      scope? other = scope? name ∧ relativePath (searched other) = relativePath (searched name)) ∧
    (∀ other, normalize other = normalize name → ∀ (finder : Finder) (places : List Path),
      finder.placesOf other = .ok places ↔ finder.placesOf name = .ok places) ∧
    ∀ lookups : Lookups, lookups.Remembers → ∀ place, (lookups.ask name).1 = .ok place ↔
      lookups.finder.places.lookUp lookups.memory.isPresent name = .ok place := by
  refine ⟨?_, hasHint_normalize name, ?_, relativePath_searched_normalize name,
    fun other => normalize_eq_normalize_iff, ?_, ?_⟩
  · exact normalize_eq_normalize_iff.2 ⟨scope?_normalize name, relativePath_searched_normalize name⟩
  · intro scope dotted
    rw [splitHint_normalize]
    constructor
    · intro h
      cases hsplit : splitHint name with
      | error error =>
        rw [hsplit] at h
        cases h
      | ok hinted =>
        rw [hsplit] at h
        cases h
        exact ⟨hinted.2, rfl, searched_of_splitHint hsplit, rfl⟩
    · rintro ⟨view, hsplit, -, rfl⟩
      rw [hsplit]
  · intro other hsame finder places
    rw [← finder.placesOf_normalize_eq_ok_iff other, hsame, finder.placesOf_normalize_eq_ok_iff name]
  · intro lookups hremembers place
    rw [hremembers.ask_eq, SearchPlaces.plainLookUp]
    simp only [Finder.lookUp_places_eq_ok_iff, Finder.placesOf_normalize_eq_ok_iff]

/-- A name with a run of colons, dots and slashes. -/
def colonName : Text := "mail:::admin/users.index".toList

/-- The same view with its dots and slashes the other way round. -/
def otherColonName : Text := "mail:::admin.users/index".toList

/-- A finder that has just answered the first name, over files that hold its view. -/
def colonLookups : Lookups :=
  let finder := (Finder.ofPaths []).addNamespace "mail".toList [.ofString "m"]
  (⟨finder, Memory.empty.put (.ofString "m/:admin/users/index.php") [] 0, []⟩ : Lookups).run [.find colonName]

theorem normalize_canonical_colonName :
    normalize otherColonName = normalize colonName ∧
    splitHint (normalize colonName) = .ok ("mail".toList, ":admin.users.index".toList) ∧
    (∀ places, colonLookups.finder.placesOf otherColonName = .ok places ↔
      colonLookups.finder.placesOf colonName = .ok places) ∧
    colonLookups.Remembers ∧
    (colonLookups.ask otherColonName).1 = .ok (.ofString "m/:admin/users/index.php") := by
  obtain ⟨-, -, hsplit, -, hsame, hplaces, -⟩ := normalize_canonical colonName
  have hnormal : normalize otherColonName = normalize colonName :=
    (hsame otherColonName).2 ⟨by decide +kernel, by decide +kernel⟩
  have hremembers : colonLookups.Remembers :=
    Lookups.Remembers.ask (fun _ _ hfound => by cases hfound) colonName
  obtain ⟨-, -, -, -, -, -, hasked⟩ := normalize_canonical otherColonName
  refine ⟨hnormal, ?_, hplaces otherColonName hnormal colonLookups.finder, hremembers, ?_⟩
  · exact (hsplit _ _).2 ⟨":admin/users.index".toList, by decide +kernel, by decide +kernel, by decide +kernel⟩
  · exact (hasked colonLookups hremembers _).2 (by decide +kernel)

end ViewName

end Template
