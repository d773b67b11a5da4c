import Template.Files.Journal
import Template.Files.Memory
import Template.View.Finder

/-! # What a finder remembers

A finder answers from its memory when it can. Its memory holds what a search in the files gives
as long as no file changes, and every change of the places it searches empties it, so nobody can
tell it from a finder without memory before a file changes. After that it stands by its answers
until it is made to forget them.
-/

namespace Template

/-- Where views are searched for, and under which extensions. -/
structure SearchPlaces where
  paths : List Path
  hints : Table Text (List Path)
  extensions : List Text

/-- What can happen to a finder and its files. -/
inductive LookupEvent where
  | find (name : Text)
  | addLocation (path : Path)
  | prependLocation (path : Path)
  | addNamespace (scope : Text) (paths : List Path)
  | prependNamespace (scope : Text) (paths : List Path)
  | replaceNamespace (scope : Text) (paths : List Path)
  | addExtension (extension : Text)
  | setExtensions (extensions : List Text)
  | flush
  /-- The files are others from now on. -/
  | change (memory : Memory)

namespace LookupEvent

/-- Whether nothing is remembered past the event. -/
def forgets : LookupEvent → Bool
  | find _ | change _ => false
  | _ => true

def files (memory : Memory) : LookupEvent → Memory
  | change memory => memory
  | _ => memory

/-- After the last change of files, something was forgotten. -/
def Settled (events : List LookupEvent) : Prop :=
  ∀ front memory later, events = front ++ change memory :: later → ∃ event ∈ later, event.forgets = true

theorem settled_concat {event : LookupEvent} (hforgets : event.forgets = true) (events : List LookupEvent) :
    Settled (events ++ [event]) := by
  intro front memory later h
  have hlast : (change memory :: later).getLast? = some event := by
    have hwhole := congrArg List.getLast? h
    rw [List.getLast?_concat, List.getLast?_append, List.getLast?_cons, Option.some_or] at hwhole
    rw [List.getLast?_cons]
    exact hwhole.symm
  rcases List.mem_cons.1 (List.mem_of_getLast? hlast) with rfl | hmem
  · cases hforgets
  · exact ⟨event, hmem, hforgets⟩

end LookupEvent

namespace SearchPlaces

/-- The first of the places of a view at which something is. -/
def search (places : SearchPlaces) (present : Path → Bool) (name view : Text) (dirs : List Path) :
    Except ViewError Path :=
  let tried := dirs.flatMap fun dir => places.extensions.map fun extension =>
    dir.join ⟨ViewName.relativePath view ++ '.' :: extension⟩
  match tried.find? present with
  | some place => .ok place
  | none => .error (.notFound name tried)

/-- The answer for a normalized name. -/
def lookUp (places : SearchPlaces) (present : Path → Bool) (name : Text) : Except ViewError Path :=
  if ViewName.hasHint name then
    match ViewName.splitHint name with
    | .error error => .error error
    | .ok (scope, view) =>
      match places.hints.find? scope with
      | some dirs => places.search present name view dirs
      | none => .error (.unknownNamespace scope)
  else places.search present name name places.paths

/-- The answer for a name, from nothing but the places and the files. -/
def plainLookUp (places : SearchPlaces) (present : Path → Bool) (name : Text) : Except ViewError Path :=
  places.lookUp present (ViewName.normalize name)

def hintPaths (places : SearchPlaces) (scope : Text) : List Path := (places.hints.find? scope).getD []

def step (places : SearchPlaces) : LookupEvent → SearchPlaces
  | .find _ | .flush | .change _ => places
  | .addLocation path => { places with paths := places.paths ++ [path] }
  | .prependLocation path => { places with paths := path :: places.paths }
  | .addNamespace scope paths =>
    { places with hints := places.hints.insert scope (places.hintPaths scope ++ paths) }
  | .prependNamespace scope paths =>
    { places with hints := places.hints.insert scope (paths ++ places.hintPaths scope) }
  | .replaceNamespace scope paths => { places with hints := places.hints.insert scope paths }
  | .addExtension extension =>
    { places with extensions := extension :: places.extensions.filter (· ≠ extension) }
  | .setExtensions extensions => { places with extensions }

end SearchPlaces

namespace Memory

def isPresent (memory : Memory) (path : Path) : Bool := (memory.file? path).isSome

end Memory

theorem Journal.bind_apply {α β : Type} (step : StateT Journal (StateM Memory) α)
    (next : α → StateT Journal (StateM Memory) β) (journal : Journal) (memory : Memory) :
    (step >>= next) journal memory =
      next (step journal memory).1.1 (step journal memory).1.2 (step journal memory).2 := rfl

namespace Finder

def places (finder : Finder) : SearchPlaces := ⟨finder.paths, finder.hints, finder.extensions⟩

theorem firstPresent?_apply (paths : List Path) (journal : Journal) (memory : Memory) :
    ∃ asked : Journal, (firstPresent? paths : StateT Journal (StateM Memory) (Option Path)) journal memory =
      ((paths.find? memory.isPresent, journal ++ asked), memory) := by
  induction paths generalizing journal with
  | nil => exact ⟨[], by rw [List.append_nil]; rfl⟩
  | cons path paths ih =>
    have hask : (firstPresent? (path :: paths) : StateT Journal (StateM Memory) (Option Path))
        journal memory = (if memory.isPresent path then pure (some path) else firstPresent? paths :
          StateT Journal (StateM Memory) (Option Path)) (journal ++ [.present path]) memory := rfl
    rw [hask, List.find?_cons]
    cases memory.isPresent path with
    | true => exact ⟨[.present path], rfl⟩
    | false =>
      obtain ⟨asked, hasked⟩ := ih (journal ++ [.present path])
      rw [List.append_assoc] at hasked
      exact ⟨.present path :: asked, hasked⟩

theorem search_places (finder : Finder) (present : Path → Bool) (name view : Text) (dirs : List Path) :
    finder.places.search present name view dirs =
      match (finder.candidates view dirs).find? present with
      | some place => .ok place
      | none => .error (.notFound name (finder.candidates view dirs)) := by
  simp only [SearchPlaces.search, places, candidates, fileNames, List.map_map, Function.comp_def]

/-- A request for a name says what the plain answer is. -/
theorem lookUp_places (finder : Finder) (present : Path → Bool) (name : Text) :
    finder.places.lookUp present name =
      match finder.request name with
      | .error error => .error error
      | .ok (view, dirs) => finder.places.search present name view dirs := by
  unfold SearchPlaces.lookUp request
  split
  case isTrue =>
    cases ViewName.splitHint name with
    | error error => rfl
    | ok hinted =>
      obtain ⟨scope, view⟩ := hinted
      change (match finder.hints.find? scope with
        | some dirs => finder.places.search present name view dirs
        | none => .error (.unknownNamespace scope)) =
          match (match finder.hints.find? scope with
            | some dirs => .ok (view, dirs)
            | none => .error (.unknownNamespace scope) : Except ViewError (Text × List Path)) with
          | .error error => .error error
          | .ok (view, dirs) => finder.places.search present name view dirs
      cases finder.hints.find? scope <;> rfl
  case isFalse => rfl

theorem lookUp_apply (finder : Finder) (name : Text) (journal : Journal) (memory : Memory) :
    ∃ asked : Journal,
      (finder.lookUp name : StateT Journal (StateM Memory) (Except ViewError Path)) journal memory =
        ((finder.places.lookUp memory.isPresent name, journal ++ asked), memory) := by
  rw [lookUp_places]
  unfold lookUp
  cases finder.request name with
  | error error => exact ⟨[], by rw [List.append_nil]; rfl⟩
  | ok request =>
    obtain ⟨view, dirs⟩ := request
    obtain ⟨asked, hasked⟩ := firstPresent?_apply (finder.candidates view dirs) journal memory
    refine ⟨asked, ?_⟩
    dsimp only
    rw [Journal.bind_apply, hasked, search_places]
    cases (finder.candidates view dirs).find? memory.isPresent <;> rfl

end Finder

/-- A finder over files in memory, with all that was asked of the files so far. -/
structure Lookups where
  finder : Finder
  memory : Memory
  journal : Journal

namespace Lookups

/-- The answer for a name, and what is there after it. -/
def ask (lookups : Lookups) (name : Text) : Except ViewError Path × Lookups :=
  let (((answer, finder), journal), memory) := (lookups.finder.find name :
    StateT Journal (StateM Memory) (Except ViewError Path × Finder)) lookups.journal lookups.memory
  (answer, ⟨finder, memory, journal⟩)

def step (lookups : Lookups) : LookupEvent → Lookups
  | .find name => (lookups.ask name).2
  | .addLocation path => { lookups with finder := lookups.finder.addLocation path }
  | .prependLocation path => { lookups with finder := lookups.finder.prependLocation path }
  | .addNamespace scope paths => { lookups with finder := lookups.finder.addNamespace scope paths }
  | .prependNamespace scope paths => { lookups with finder := lookups.finder.prependNamespace scope paths }
  | .replaceNamespace scope paths => { lookups with finder := lookups.finder.replaceNamespace scope paths }
  | .addExtension extension => { lookups with finder := lookups.finder.addExtension extension }
  | .setExtensions extensions => { lookups with finder := lookups.finder.setExtensions extensions }
  | .flush => { lookups with finder := lookups.finder.flush }
  | .change memory => { lookups with memory }

def run (lookups : Lookups) (events : List LookupEvent) : Lookups := events.foldl step lookups

/-- Whatever is remembered is the plain answer. -/
def Remembers (lookups : Lookups) : Prop :=
  ∀ name place, lookups.finder.found.find? name = some place →
    lookups.finder.places.lookUp lookups.memory.isPresent name = .ok place

section

variable {lookups : Lookups} {event : LookupEvent} {name key : Text} {place : Path}

theorem ask_of_found (h : lookups.finder.found.find? (ViewName.normalize name) = some place) :
    lookups.ask name = (.ok place, lookups) := by
  unfold ask Finder.find
  simp only [h]
  rfl

theorem ask_of_not_found (h : lookups.finder.found.find? (ViewName.normalize name) = none) :
    ∃ asked : Journal, lookups.ask name =
      match lookups.finder.places.plainLookUp lookups.memory.isPresent name with
      | .ok place => (.ok place,
        { lookups with
          finder.found := lookups.finder.found.insert (ViewName.normalize name) place
          journal := lookups.journal ++ asked })
      | .error error => (.error error, { lookups with journal := lookups.journal ++ asked }) := by
  obtain ⟨asked, hasked⟩ := lookups.finder.lookUp_apply (ViewName.normalize name) lookups.journal
    lookups.memory
  refine ⟨asked, ?_⟩
  unfold ask Finder.find SearchPlaces.plainLookUp
  simp only [h]
  rw [Journal.bind_apply, hasked]
  cases lookups.finder.places.lookUp lookups.memory.isPresent (ViewName.normalize name) <;> rfl

/-- A name is answered from memory, or it is searched for, and remembered if it is found. -/
theorem ask_cases (lookups : Lookups) (name : Text) :
    (∃ place, lookups.finder.found.find? (ViewName.normalize name) = some place ∧
      lookups.ask name = (.ok place, lookups)) ∨
    (lookups.finder.found.find? (ViewName.normalize name) = none ∧ ∃ asked : Journal,
      (∃ place, lookups.finder.places.plainLookUp lookups.memory.isPresent name = .ok place ∧
        lookups.ask name = (.ok place,
          { lookups with
            finder.found := lookups.finder.found.insert (ViewName.normalize name) place
            journal := lookups.journal ++ asked })) ∨
      ∃ error, lookups.finder.places.plainLookUp lookups.memory.isPresent name = .error error ∧
        lookups.ask name = (.error error, { lookups with journal := lookups.journal ++ asked })) := by
  cases hfound : lookups.finder.found.find? (ViewName.normalize name) with
  | some place => exact .inl ⟨place, rfl, ask_of_found hfound⟩
  | none =>
    obtain ⟨asked, hask⟩ := ask_of_not_found hfound
    refine .inr ⟨rfl, asked, ?_⟩
    cases hplain : lookups.finder.places.plainLookUp lookups.memory.isPresent name with
    | ok place =>
      rw [hplain] at hask
      exact .inl ⟨place, rfl, hask⟩
    | error error =>
      rw [hplain] at hask
      exact .inr ⟨error, rfl, hask⟩

theorem ask_memory (lookups : Lookups) (name : Text) : (lookups.ask name).2.memory = lookups.memory := by
  rcases ask_cases lookups name with
    ⟨_, _, hask⟩ | ⟨_, _, ⟨_, _, hask⟩ | ⟨_, _, hask⟩⟩ <;> rw [hask]

theorem ask_places (lookups : Lookups) (name : Text) :
    (lookups.ask name).2.finder.places = lookups.finder.places := by
  rcases ask_cases lookups name with
    ⟨_, _, hask⟩ | ⟨_, _, ⟨_, _, hask⟩ | ⟨_, _, hask⟩⟩ <;> rw [hask]
  rfl

theorem step_places (lookups : Lookups) (event : LookupEvent) :
    (lookups.step event).finder.places = lookups.finder.places.step event := by
  cases event with
  | find name => exact ask_places lookups name
  | _ => rfl

theorem run_places (lookups : Lookups) (events : List LookupEvent) :
    (lookups.run events).finder.places = events.foldl SearchPlaces.step lookups.finder.places := by
  induction events generalizing lookups with
  | nil => rfl
  | cons event events ih => rw [List.foldl_cons, ← step_places]; exact ih (lookups.step event)

theorem run_memory (lookups : Lookups) (events : List LookupEvent) :
    (lookups.run events).memory = events.foldl LookupEvent.files lookups.memory := by
  have step_memory : ∀ (lookups : Lookups) (event : LookupEvent),
      (lookups.step event).memory = LookupEvent.files lookups.memory event := by
    intro lookups event
    cases event with
    | find name => exact ask_memory lookups name
    | _ => rfl
  induction events generalizing lookups with
  | nil => rfl
  | cons event events ih => rw [List.foldl_cons, ← step_memory]; exact ih (lookups.step event)

theorem remembers_of_forgets (h : event.forgets = true) : (lookups.step event).Remembers := by
  intro key place hfound
  cases event with
  | find | change => cases h
  | _ => cases hfound

theorem Remembers.ask_eq (h : lookups.Remembers) (name : Text) :
    (lookups.ask name).1 = lookups.finder.places.plainLookUp lookups.memory.isPresent name := by
  rcases ask_cases lookups name with
    ⟨place, hfound, hask⟩ | ⟨_, _, ⟨_, hplain, hask⟩ | ⟨_, hplain, hask⟩⟩
  · rw [hask]
    exact (h _ place hfound).symm
  · rw [hask, hplain]
  · rw [hask, hplain]

theorem Remembers.ask (h : lookups.Remembers) (name : Text) : (lookups.ask name).2.Remembers := by
  rcases ask_cases lookups name with
    ⟨_, _, hask⟩ | ⟨_, _, ⟨place, hplain, hask⟩ | ⟨_, _, hask⟩⟩
  · rw [hask]
    exact h
  · rw [hask]
    intro key other hkey
    dsimp only at hkey
    rw [Table.find?_insert] at hkey
    split at hkey
    case isTrue heq =>
      cases hkey
      rw [heq]
      exact hplain
    case isFalse => exact h key other hkey
  · rw [hask]
    exact h

/-- The memory is right after events that settle, if it was right before or is forgotten on the way. -/
theorem remembers_run {events : List LookupEvent} (hsettled : LookupEvent.Settled events)
    (h : lookups.Remembers ∨ ∃ event ∈ events, event.forgets = true) :
    (lookups.run events).Remembers := by
  -- A change may break what is remembered, but then something that forgets is still to come.
  induction events generalizing lookups with
  | nil => exact h.resolve_right (by simp)
  | cons event events ih =>
    have hlater : LookupEvent.Settled events := by
      rintro front memory later rfl
      exact hsettled (event :: front) memory later rfl
    apply ih hlater
    by_cases hforgets : event.forgets = true
    · exact .inl (remembers_of_forgets hforgets)
    · have hothers : (∃ other ∈ event :: events, other.forgets = true) →
          ∃ other ∈ events, other.forgets = true := by
        simp only [List.mem_cons, exists_eq_or_imp, hforgets, false_or, Bool.false_eq_true]
        exact id
      cases event with
      | find name => exact h.imp (fun hremembers => hremembers.ask name) hothers
      | change memory => exact .inr (hsettled [] memory events rfl)
      | _ => exact absurd rfl hforgets

theorem found_step (hforgets : event.forgets = false) (h : lookups.finder.found.find? key = some place) :
    (lookups.step event).finder.found.find? key = some place := by
  cases event with
  | find name =>
    change (lookups.ask name).2.finder.found.find? key = some place
    rcases ask_cases lookups name with
      ⟨_, _, hask⟩ | ⟨hfound, _, ⟨_, _, hask⟩ | ⟨_, _, hask⟩⟩
    · rw [hask, h]
    · have hne : key ≠ ViewName.normalize name := by
        rintro rfl
        rw [h] at hfound
        cases hfound
      rw [hask]
      dsimp only
      rw [Table.find?_insert, if_neg hne, h]
    · rw [hask, h]
  | change => exact h
  | _ => cases hforgets

theorem found_run {events : List LookupEvent} (hforgets : ∀ event ∈ events, event.forgets = false)
    (h : lookups.finder.found.find? key = some place) :
    (lookups.run events).finder.found.find? key = some place := by
  induction events generalizing lookups with
  | nil => exact h
  | cons event events ih =>
    exact ih (fun other hother => hforgets other (List.mem_cons_of_mem event hother))
      (found_step (hforgets event List.mem_cons_self) h)

theorem found_of_ask (h : (lookups.ask name).1 = .ok place) :
    (lookups.ask name).2.finder.found.find? (ViewName.normalize name) = some place := by
  rcases ask_cases lookups name with
    ⟨_, hfound, hask⟩ | ⟨_, _, ⟨_, _, hask⟩ | ⟨_, _, hask⟩⟩ <;> rw [hask] at h ⊢ <;> cases h
  · exact hfound
  · dsimp only
    rw [Table.find?_insert, if_pos rfl]

theorem finder_of_ask_error {error : ViewError} (h : (lookups.ask name).1 = .error error) :
    (lookups.ask name).2.finder = lookups.finder := by
  rcases ask_cases lookups name with
    ⟨_, _, hask⟩ | ⟨_, _, ⟨_, _, hask⟩ | ⟨_, _, hask⟩⟩ <;> rw [hask] at h ⊢
  cases h

end

/-- Whatever has happened to a finder, it answers as the plain search does once something was
    forgotten after the last change of files. A place it has answered with stays its answer for
    every spelling of the name, without a look at the files, until something is forgotten; and a
    failure is not remembered. -/
theorem ask_refines_plainLookUp (paths : List Path) (hints : Table Text (List Path))
    (extensions : List Text) (memory : Memory) (journal : Journal) (events : List LookupEvent) (name : Text) :
    let lookups := (⟨⟨paths, hints, extensions, .empty⟩, memory, journal⟩ : Lookups).run events
    (LookupEvent.Settled events →
      (lookups.ask name).1 = (events.foldl SearchPlaces.step ⟨paths, hints, extensions⟩).plainLookUp
        (events.foldl LookupEvent.files memory).isPresent name) ∧
    (∀ place later again, (lookups.ask name).1 = .ok place → (∀ event ∈ later, event.forgets = false) →
      ViewName.normalize again = ViewName.normalize name →
        ((lookups.ask name).2.run later).ask again = (.ok place, (lookups.ask name).2.run later)) ∧
    ∀ error, (lookups.ask name).1 = .error error → (lookups.ask name).2.finder = lookups.finder := by
  refine ⟨?_, ?_, ?_⟩
  · intro hsettled
    have hempty : Remembers ⟨⟨paths, hints, extensions, .empty⟩, memory, journal⟩ := fun _ _ hfound => by
      cases hfound
    have hremembers := remembers_run hsettled (.inl hempty)
    rw [hremembers.ask_eq, run_places, run_memory]
    rfl
  · intro place later again hfound hforgets hagain
    apply ask_of_found
    rw [hagain]
    exact found_run hforgets (found_of_ask hfound)
  · intro error herror
    exact finder_of_ask_error herror

/-- A view that comes and goes. -/
def passingView : Path := .ofString "views/mail/welcome.php"

/-- A finder that misses a view before it is there and is told to look again. -/
def passingEvents : List LookupEvent :=
  [.find "mail.welcome".toList, .change (Memory.empty.put passingView [] 0), .flush]

/-- The view is found, and stays found under its other spelling when it is gone. -/
theorem ask_refines_plainLookUp_passingView :
    let missing := (⟨.ofPaths [.ofString "views"], .empty, []⟩ : Lookups)
    let found := missing.run passingEvents
    (found.ask "mail.welcome".toList).1 = .ok passingView ∧
    ((found.ask "mail.welcome".toList).2.run [.change .empty]).ask "mail/welcome".toList =
      (.ok passingView, (found.ask "mail.welcome".toList).2.run [.change .empty]) ∧
    (missing.ask "mail.welcome".toList).2.finder = missing.finder := by
  obtain ⟨hplain, hkept, -⟩ := ask_refines_plainLookUp [.ofString "views"] .empty defaultExtensions .empty []
    passingEvents "mail.welcome".toList
  have hsettled : LookupEvent.Settled passingEvents :=
    LookupEvent.settled_concat rfl [.find "mail.welcome".toList, .change _]
  have hfound := (hplain hsettled).trans rfl
  have herror := (ask_refines_plainLookUp [.ofString "views"] .empty defaultExtensions .empty [] []
    "mail.welcome".toList).2.2
  refine ⟨hfound, hkept passingView [.change .empty] "mail/welcome".toList hfound ?_ (by decide), ?_⟩
  · simp [LookupEvent.forgets]
  · exact herror (.notFound "mail.welcome".toList
      [.ofString "views/mail/welcome.plaze.php", passingView]) rfl

end Lookups

end Template
