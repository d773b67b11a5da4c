import Mathlib.Data.List.Infix
import Template.Proofs.Span
import Template.Proofs.Standard

/-! # Segments

A well-formed template is a list of segments: text, echo tags, literal tags, comments,
directives and native code. A segment says how it is written and what stands for it in the
output. What a segment looks like alone makes it well-formed; two things depend on its
neighbours: a directive must not follow a word character, and a tag without a line break of its
own must not be followed by one.
-/

namespace Template

open Markers (standardComments)

inductive Segment where
  | text (written : Text)
  /-- An echo tag, with the line break that belongs to it. -/
  | echo (family : EchoFamily) (lead expression trail lineBreak : Text)
  /-- An echo tag behind the escape marker. -/
  | literal (family : EchoFamily) (lead expression trail : Text)
  | comment (inside : Text)
  /-- A directive with an argument, given without its parentheses. -/
  | directive (name spacing argument : Text)
  | native (code : Text)
  deriving DecidableEq, Repr

/-- What a family shows of an expression in the default configuration. -/
def EchoFamily.shown (family : EchoFamily) (expression : Text) : Text :=
  match family with
  | .raw => expression
  | .escaped | .regular => "e(".toList ++ expression ++ ")".toList

/-- The native code that an echo tag becomes, up to and with the line break that its closing mark takes. -/
def echoSpan (family : EchoFamily) (expression lineBreak : Text) : Text :=
  "<?php echo ".toList ++ family.shown expression ++ "; ?>".toList ++ lineBreak

def parenthesized (argument : Text) : Text := '(' :: (argument ++ [')'])

/-- Outputs of directives by name and argument. -/
abbrev Outputs := Text → Text → Text

/-- The output of a directive is the given one, and nothing goes to the footer. -/
def Registry.Writes (registry : Registry) (answers : Answers) (name argument output : Text) : Prop :=
  ∃ handler, registry.find? name = some handler ∧ ∀ context,
    (handler (some argument)).run answers registry.names context = (.ok output, context)

/-- Markers can be put around an expression so that it is read as it is. -/
structure IsInside (lead expression trail : Text) : Prop where
  lead_ne_nil : lead ≠ []
  lead_blank : ∀ c ∈ lead, isBlank c = true
  trail_blank : ∀ c ∈ trail, isBlank c = true
  head : ∃ c ∈ expression.head?, isBlank c = false
  last : ∃ c ∈ expression.getLast?, isBlank c = false
  opening : '\x7b' ∉ expression
  closing : '\x7d' ∉ expression
  introducer : ¬ directiveIntroducer <:+: expression
  native : ¬ ['<', '?'] <:+: expression

instance (lead expression trail : Text) : Decidable (IsInside lead expression trail) :=
  decidable_of_iff
    (lead ≠ [] ∧ lead.all isBlank = true ∧ trail.all isBlank = true ∧
      expression.head?.any (fun c => !isBlank c) = true ∧
      expression.getLast?.any (fun c => !isBlank c) = true ∧
      '\x7b' ∉ expression ∧ '\x7d' ∉ expression ∧ ¬ directiveIntroducer <:+: expression ∧
      ¬ ['<', '?'] <:+: expression)
    (by
      simp only [List.all_eq_true, Option.any_eq_true, Bool.not_eq_true']
      constructor
      · rintro ⟨h, hlead, htrail, hhead, hlast, hopening, hclosing, hintroducer, hnative⟩
        exact ⟨h, hlead, htrail, hhead, hlast, hopening, hclosing, hintroducer, hnative⟩
      · intro h
        exact ⟨h.lead_ne_nil, h.lead_blank, h.trail_blank, h.head, h.last, h.opening, h.closing,
          h.introducer, h.native⟩)

namespace IsInside

variable {lead expression trail : Text}

theorem opening_not_mem (h : IsInside lead expression trail) : '\x7b' ∉ lead ++ (expression ++ trail) := by
  simp only [List.mem_append, not_or]
  refine ⟨fun hmem => ?_, h.opening, fun hmem => ?_⟩
  · cases h.lead_blank _ hmem
  · cases h.trail_blank _ hmem

theorem closing_not_mem (h : IsInside lead expression trail) : '\x7d' ∉ lead ++ (expression ++ trail) := by
  simp only [List.mem_append, not_or]
  refine ⟨fun hmem => ?_, h.closing, fun hmem => ?_⟩
  · cases h.lead_blank _ hmem
  · cases h.trail_blank _ hmem

end IsInside

namespace Segment

def source : Segment → Text
  | text written => written
  | echo family lead expression trail lineBreak =>
    (EchoPasses.standard.markers family).opening ++ (lead ++ (expression ++ (trail ++
      ((EchoPasses.standard.markers family).closing ++ lineBreak))))
  | literal family lead expression trail =>
    escapeMarker :: ((EchoPasses.standard.markers family).opening ++ (lead ++ (expression ++ (trail ++
      (EchoPasses.standard.markers family).closing))))
  | comment inside => standardComments.opening ++ (inside ++ standardComments.closing)
  | directive name spacing argument =>
    directiveIntroducer ++ (name ++ (spacing ++ parenthesized argument))
  | native code => code

/-- The text of a segment that is left without comments. -/
def kept : Segment → Text
  | comment _ => []
  | segment => segment.source

theorem source_literal (family : EchoFamily) (lead expression trail : Text) :
    (literal family lead expression trail).source =
      escapeMarker :: (echo family lead expression trail []).source := by
  simp [source]

/-- What stands for a segment in the output. The line break of an echo tag stands there twice: once in the
    native code, whose closing mark takes it, and once behind it. -/
def rendered (outputs : Outputs) : Segment → Text
  | text written => written
  | echo family _ expression _ lineBreak => echoSpan family expression lineBreak ++ lineBreak
  | literal family lead expression trail =>
    (EchoPasses.standard.markers family).opening ++ (lead ++ (expression ++ (trail ++
      (EchoPasses.standard.markers family).closing)))
  | comment _ => []
  | directive name _ argument => outputs name (parenthesized argument)
  | native code => code

/-- The segment is written as the grammar of its kind says. -/
def WellFormed : Segment → Prop
  | text written =>
    '\x7b' ∉ written ∧ '@' ∉ written ∧ ¬ ['<', '?'] <:+: written ∧ written.getLast? ≠ some '<'
  | echo _ lead expression trail lineBreak =>
    IsInside lead expression trail ∧ (lineBreak = [] ∨ lineBreak = ['\n'] ∨ lineBreak = ['\r', '\n'])
  | literal _ lead expression trail => IsInside lead expression trail
  | comment inside => ¬ standardComments.closing <:+: inside ∧ ¬ ['<', '?'] <:+: inside
  | directive name spacing argument =>
    name ≠ [] ∧ (∀ c ∈ name, isWord c = true) ∧ (∀ c ∈ spacing, DirectiveTag.isSpacing c = true) ∧
      Text.matchingParen? (parenthesized argument) 0 =
        some (Text.byteLength (parenthesized argument) - 1) ∧
      ¬ standardComments.opening <:+: argument ∧ ¬ ['<', '?'] <:+: argument
  | native code => IsNativeCode code

instance : DecidablePred WellFormed
  | text written => inferInstanceAs (Decidable
      ('\x7b' ∉ written ∧ '@' ∉ written ∧ ¬ ['<', '?'] <:+: written ∧ written.getLast? ≠ some '<'))
  | echo _ lead expression trail lineBreak => inferInstanceAs (Decidable
      (IsInside lead expression trail ∧
        (lineBreak = [] ∨ lineBreak = ['\n'] ∨ lineBreak = ['\r', '\n'])))
  | literal _ lead expression trail => inferInstanceAs (Decidable (IsInside lead expression trail))
  | comment inside => inferInstanceAs (Decidable
      (¬ standardComments.closing <:+: inside ∧ ¬ ['<', '?'] <:+: inside))
  | directive name spacing argument => decidable_of_iff
      (name ≠ [] ∧ name.all isWord = true ∧ spacing.all DirectiveTag.isSpacing = true ∧
        Text.matchingParen? (parenthesized argument) 0 =
          some (Text.byteLength (parenthesized argument) - 1) ∧
        ¬ standardComments.opening <:+: argument ∧ ¬ ['<', '?'] <:+: argument)
      (by simp only [List.all_eq_true, WellFormed])
  | native code => inferInstanceAs (Decidable
      (Span.ofText code = [⟨.native, code, 0⟩] ∧ closesCode .code (code.drop 2) = true))

/-- Its neighbours do not change how the segment is read: a directive does not follow a word
    character, and no line break follows an echo tag that has none. -/
def Fits (previous : Option Char) (after : Text) : Segment → Prop
  | directive _ _ _ => previous.any isWord = false
  | echo _ _ _ _ lineBreak => lineBreak = [] → (splitLineBreak after).1 = []
  | _ => True

instance (previous : Option Char) (after : Text) : DecidablePred (Fits previous after)
  | directive _ _ _ => inferInstanceAs (Decidable (previous.any isWord = false))
  | echo _ _ _ _ lineBreak => inferInstanceAs (Decidable
      (lineBreak = [] → (splitLineBreak after).1 = []))
  | text _ | literal _ _ _ _ | comment _ | native _ => inferInstanceAs (Decidable True)

/-- Whether the segment is a comment. -/
def isComment : Segment → Bool
  | comment _ => true
  | _ => false

/-- Whether the segment is a directive. -/
def isDirective : Segment → Bool
  | directive _ _ _ => true
  | _ => false

/-- Whether the segment is native code. -/
def isNative : Segment → Bool
  | native _ => true
  | _ => false

/-- Whether the segment is an echo tag or a literal tag of the family. -/
def isOf (family : EchoFamily) : Segment → Bool
  | echo own _ _ _ _ | literal own _ _ _ => own = family
  | _ => false

/-- A directive has the given output. -/
def Writes (registry : Registry) (answers : Answers) (outputs : Outputs) : Segment → Prop
  | directive name _ argument =>
    registry.Writes answers name (parenthesized argument) (outputs name (parenthesized argument))
  | _ => True

theorem WellFormed.text_of_suffix (whole rest : Text) (hsuffix : rest <:+ whole)
    (h : (text whole).WellFormed) : (text rest).WellFormed := by
  obtain ⟨front, rfl⟩ := hsuffix
  obtain ⟨hbrace, hescape, hnative, hlast⟩ := h
  refine ⟨fun hmem => hbrace (List.mem_append_right front hmem),
    fun hmem => hescape (List.mem_append_right front hmem),
    fun hoccurs => hnative (hoccurs.trans (List.suffix_append front rest).isInfix), ?_⟩
  intro hrest
  rw [List.getLast?_append, hrest] at hlast
  exact hlast rfl

/-- A segment that fits before a text fits before any beginning of it. -/
theorem Fits.of_append {previous : Option Char} {segment : Segment} {after more : Text}
    (h : segment.Fits previous (after ++ more)) : segment.Fits previous after := by
  cases segment with
  | directive => exact h
  | echo => exact fun hlineBreak => splitLineBreak_fst_of_append (h hlineBreak)
  | text | literal | comment | native => trivial

end Segment

namespace Segments

/-- The text of a list of segments. -/
def source (segments : List Segment) : Text := segments.flatMap Segment.source

/-- The text of a list of segments without its comments. -/
def kept (segments : List Segment) : Text := segments.flatMap Segment.kept

/-- The output of a list of segments. -/
def rendered (outputs : Outputs) (segments : List Segment) : Text :=
  segments.flatMap (Segment.rendered outputs)

/-- Every segment fits where it stands in the text without comments. `previous` is the character
    before the segments. -/
def Placed : (previous : Option Char) → List Segment → Prop
  | _, [] => True
  | previous, segment :: segments =>
    segment.Fits previous (kept segments) ∧ Placed (segment.kept.getLast?.or previous) segments

/-- Whether the segments are placed is found out one by one. -/
def decidablePlaced : (previous : Option Char) → (segments : List Segment) → Decidable (Placed previous segments)
  | _, [] => inferInstanceAs (Decidable True)
  | previous, segment :: segments =>
    have := decidablePlaced (segment.kept.getLast?.or previous) segments
    inferInstanceAs (Decidable (segment.Fits previous (kept segments) ∧
      Placed (segment.kept.getLast?.or previous) segments))

instance (previous : Option Char) : DecidablePred (Placed previous) := decidablePlaced previous

section

variable {outputs : Outputs} {segment : Segment} {segments more : List Segment}
  {previous other : Option Char}

@[simp] theorem source_nil : source [] = [] := rfl

@[simp] theorem source_cons : source (segment :: segments) = segment.source ++ source segments := by
  simp [source]

@[simp] theorem source_append : source (segments ++ more) = source segments ++ source more := by
  simp [source]

@[simp] theorem kept_nil : kept [] = [] := rfl

@[simp] theorem kept_cons : kept (segment :: segments) = segment.kept ++ kept segments := by
  simp [kept]

@[simp] theorem kept_append : kept (segments ++ more) = kept segments ++ kept more := by
  simp [kept]

@[simp] theorem rendered_nil : rendered outputs [] = [] := rfl

@[simp] theorem rendered_cons :
    rendered outputs (segment :: segments) = segment.rendered outputs ++ rendered outputs segments := by
  simp [rendered]

@[simp] theorem rendered_append :
    rendered outputs (segments ++ more) = rendered outputs segments ++ rendered outputs more := by
  simp [rendered]

theorem placed_cons : Placed previous (segment :: segments) ↔
    segment.Fits previous (kept segments) ∧ Placed (segment.kept.getLast?.or previous) segments :=
  Iff.rfl

theorem Placed.append (h : Placed previous (segments ++ more)) :
    Placed previous segments ∧ Placed ((kept segments).getLast?.or previous) more := by
  induction segments generalizing previous with
  | nil => exact ⟨trivial, h⟩
  | cons segment segments ih =>
    rw [List.cons_append, placed_cons, kept_append] at h
    obtain ⟨hsegments, hmore⟩ := ih h.2
    refine ⟨⟨h.1.of_append, hsegments⟩, ?_⟩
    rw [kept_cons, List.getLast?_append, Option.or_assoc]
    exact hmore

theorem Placed.mono (h : Placed previous segments)
    (hle : previous.any isWord = false → other.any isWord = false) : Placed other segments := by
  induction segments generalizing previous other with
  | nil => trivial
  | cons segment segments ih =>
    rw [placed_cons] at h ⊢
    refine ⟨?_, ih h.2 ?_⟩
    · cases segment with
      | directive => exact hle h.1
      | echo | text | literal | comment | native => exact h.1
    · cases segment.kept.getLast? with
      | none => exact hle
      | some c => exact id

theorem Placed.start (h : Placed previous segments) : Placed none segments := h.mono fun _ => rfl

/-- The segments without the comments among them. -/
def withoutComments (segments : List Segment) : List Segment := segments.filter fun s => !s.isComment

theorem source_withoutComments (segments : List Segment) :
    source (withoutComments segments) = kept segments := by
  induction segments with
  | nil => rfl
  | cons segment segments ih =>
    cases segment <;> simp [withoutComments, Segment.isComment, Segment.kept] at ih ⊢ <;> exact ih

theorem kept_withoutComments (segments : List Segment) :
    kept (withoutComments segments) = kept segments := by
  induction segments with
  | nil => rfl
  | cons segment segments ih =>
    cases segment <;> simp [withoutComments, Segment.isComment, Segment.kept] at ih ⊢ <;> exact ih

theorem rendered_withoutComments (segments : List Segment) :
    rendered outputs (withoutComments segments) = rendered outputs segments := by
  unfold withoutComments
  induction segments with
  | nil => rfl
  | cons segment segments ih =>
    cases segment with
    | comment inside =>
      rw [List.filter_cons_of_neg Bool.false_ne_true, ih, rendered_cons, Segment.rendered, List.nil_append]
    | text | echo | literal | directive | native => rw [List.filter_cons_of_pos rfl, rendered_cons, ih, rendered_cons]

theorem Placed.withoutComments (h : Placed previous segments) :
    Placed previous (withoutComments segments) := by
  induction segments generalizing previous with
  | nil => trivial
  | cons segment segments ih =>
    cases hcomment : segment.isComment with
    | true =>
      have hkept : segment.kept = [] := by
        cases segment <;> first | rfl | cases hcomment
      have hlater := ih h.2
      rw [hkept] at hlater
      simpa [Segments.withoutComments, hcomment] using hlater
    | false =>
      have hcons : Segments.withoutComments (segment :: segments) =
          segment :: Segments.withoutComments segments := by
        simp [Segments.withoutComments, hcomment]
      rw [hcons, placed_cons, kept_withoutComments]
      exact ⟨h.1, ih h.2⟩

theorem kept_eq_source (h : ∀ s ∈ segments, s.isComment = false) : kept segments = source segments := by
  rw [← source_withoutComments, withoutComments, List.filter_eq_self.2]
  intro s hs
  rw [h s hs]
  rfl

/-- The first segment that passes a test, with what is before and after it. -/
theorem exists_first (p : Segment → Bool) (segments : List Segment) :
    (∀ s ∈ segments, p s = false) ∨ ∃ run s rest, segments = run ++ s :: rest ∧
      (∀ s ∈ run, p s = false) ∧ p s = true := by
  cases hfind : segments.find? p with
  | none => exact .inl fun s hs => by simpa using List.find?_eq_none.1 hfind s hs
  | some s =>
    obtain ⟨hs, run, rest, hsegments, hrun⟩ := List.find?_eq_some_iff_append.1 hfind
    exact .inr ⟨run, s, rest, hsegments, fun t ht => by simpa using hrun t ht, hs⟩

/-- Segments read up to the first that passes a test, and then on with as many as are left. -/
theorem first_induction {P : List Segment → Prop} (p : Segment → Bool)
    (none : ∀ run, (∀ s ∈ run, p s = false) → P run)
    (first : ∀ run s rest, (∀ s ∈ run, p s = false) → p s = true →
      (∀ later : List Segment, later.length = rest.length → P later) → P (run ++ s :: rest))
    (segments : List Segment) : P segments := by
  generalize hlength : segments.length = n
  induction n using Nat.strongRecOn generalizing segments with
  | ind n ih =>
    rcases exists_first p segments with hnone | ⟨run, s, rest, rfl, hrun, hs⟩
    · exact none segments hnone
    · refine first run s rest hrun hs fun later hlater => ih later.length ?_ later rfl
      rw [hlater, ← hlength, List.length_append, List.length_cons]
      omega

/-- The text of segments that none of the places asked for begins in. -/
theorem avoids_source {p : Text → Prop} (h : ∀ s ∈ segments, ∀ t, Text.Avoids p s.source t) (t : Text) :
    Text.Avoids p (source segments) t := by
  induction segments with
  | nil => trivial
  | cons segment segments ih =>
    rw [List.forall_mem_cons] at h
    rw [source_cons, Text.avoids_append]
    exact ⟨h.1 _, ih h.2⟩

/-- What holds of the segments holds of others that have less text in some places. -/
def Leaves (segments later : List Segment) : Prop :=
  ∀ P : Segment → Prop, (∀ whole written, written <:+ whole → P (.text whole) → P (.text written)) →
    (∀ s ∈ segments, P s) → ∀ s ∈ later, P s

/-- A line break character at the head of the segments belongs to text, which can do without. -/
theorem exists_without_head {c : Char} {t : Text} (hc : c = '\r' ∨ c = '\n')
    (hwell : ∀ s ∈ segments, s.WellFormed) (hsource : source segments = c :: t) :
    ∃ later : List Segment, later.length = segments.length ∧ source later = t ∧
      (∀ outputs, rendered outputs segments = c :: rendered outputs later) ∧
      Leaves segments later ∧ ∀ previous, Placed previous segments → Placed none later := by
  induction segments with
  | nil => cases hsource
  | cons segment segments ih =>
    have hne : ∀ d, (source (segment :: segments)).head? = some d → d ≠ '\r' → d ≠ '\n' → False := by
      intro d hd hr hn
      rw [hsource] at hd
      cases hd
      rcases hc with rfl | rfl
      · exact hr rfl
      · exact hn rfl
    rw [List.forall_mem_cons] at hwell
    cases segment with
    | text written =>
      cases written with
      | nil =>
        obtain ⟨later, hlength, hlater, hrendered, hleaves, hplaced⟩ := ih hwell.2 hsource
        refine ⟨.text [] :: later, by simp [hlength], hlater, hrendered, ?_, ?_⟩
        · intro P htext hall
          rw [List.forall_mem_cons] at hall ⊢
          exact ⟨hall.1, hleaves P htext hall.2⟩
        · exact fun previous h => ⟨trivial, hplaced _ h.2⟩
      | cons d written =>
        rw [source_cons, Segment.source, List.cons_append, List.cons.injEq] at hsource
        obtain ⟨rfl, rfl⟩ := hsource
        refine ⟨.text written :: segments, rfl, rfl, fun _ => rfl, ?_, ?_⟩
        · intro P htext hall
          rw [List.forall_mem_cons] at hall ⊢
          exact ⟨htext _ _ (List.suffix_cons d written) hall.1, hall.2⟩
        · intro previous hplaced
          refine ⟨trivial, hplaced.2.mono fun hword => ?_⟩
          change ((d :: written).getLast?.or previous).any isWord = false at hword
          change (written.getLast?.or none).any isWord = false
          cases written with
          | nil => rfl
          | cons e written =>
            rw [List.getLast?_cons_cons] at hword
            rw [List.getLast?_eq_some_getLast (List.cons_ne_nil e written)] at hword ⊢
            exact hword
    | echo family lead expression trail lineBreak =>
      cases family <;> exact (hne '\x7b' rfl (by decide) (by decide)).elim
    | literal family lead expression trail => exact (hne '@' rfl (by decide) (by decide)).elim
    | comment inside => exact (hne '\x7b' rfl (by decide) (by decide)).elim
    | directive name spacing argument => exact (hne '<' rfl (by decide) (by decide)).elim
    | native code =>
      obtain ⟨u, rfl⟩ := IsNativeCode.exists_eq hwell.1
      exact (hne '<' rfl (by decide) (by decide)).elim

/-- So does a whole line break. -/
theorem exists_after_lineBreak (hwell : ∀ s ∈ segments, s.WellFormed) :
    ∃ later : List Segment, later.length = segments.length ∧
      source later = (splitLineBreak (source segments)).2 ∧
      (∀ outputs, rendered outputs segments =
        (splitLineBreak (source segments)).1 ++ rendered outputs later) ∧
      Leaves segments later ∧ ∀ previous, Placed previous segments → Placed none later := by
  unfold splitLineBreak
  split
  case _ t hsource =>
    obtain ⟨half, hlength, hhalf, hrendered, hleaves, hplaced⟩ :=
      exists_without_head (.inl rfl) hwell hsource
    obtain ⟨later, hlength', hlater, hrendered', hleaves', hplaced'⟩ :=
      exists_without_head (.inr rfl) (hleaves _ Segment.WellFormed.text_of_suffix hwell) hhalf
    refine ⟨later, hlength'.trans hlength, hlater, ?_, ?_, ?_⟩
    · intro outputs
      rw [hrendered, hrendered']
      rfl
    · exact fun P htext hall => hleaves' P htext (hleaves P htext hall)
    · exact fun previous h => hplaced' none (hplaced previous h)
  case _ t hsource => exact exists_without_head (.inr rfl) hwell hsource
  case _ => exact ⟨segments, rfl, rfl, fun _ => rfl, fun _ _ hall => hall, fun _ h => h.start⟩

end

end Segments

end Template
