import Template.Comment
import Template.Span

/-! # Echo tags

An echo tag is an opening marker, an expression with blanks around it, and a closing marker;
an escape marker may stand before it, and a line break right after it belongs to it. As many
blanks as possible are left out of the expression, and the expression is as short as the
closing marker allows, but never empty. The parts of a tag spell the text it was read from.
-/

namespace Template

/-- An echo tag as it is written, without its markers. -/
structure EchoTag where
  /-- Whether the escape marker stands before it. -/
  escaped : Bool
  lead : Text
  expression : Text
  trail : Text
  /-- The line break after the tag. -/
  lineBreak : Text
  deriving DecidableEq, Repr

namespace EchoTag

def inside (tag : EchoTag) : Text := tag.lead ++ tag.expression ++ tag.trail

/-- The text of the tag without an escape marker. -/
def unescaped (markers : Markers) (tag : EchoTag) : Text :=
  markers.opening ++ tag.inside ++ markers.closing ++ tag.lineBreak

def source (markers : Markers) (tag : EchoTag) : Text :=
  (if tag.escaped then [escapeMarker] else []) ++ tag.unescaped markers

end EchoTag

namespace Markers

/-- Blanks followed by `mark`, as many as possible: the blanks, and the text after the mark. -/
def blanksThen? (mark : Text) : Text → Option (Text × Text)
  | [] => (Text.stripPrefix? mark []).map fun after => ([], after)
  | c :: t =>
    match if isBlank c then blanksThen? mark t else none with
    | some (blanks, after) => some (c :: blanks, after)
    | none => (Text.stripPrefix? mark (c :: t)).map fun after => ([], after)

theorem blanksThen?_eq_some {mark t blanks after : Text}
    (h : blanksThen? mark t = some (blanks, after)) : t = blanks ++ mark ++ after := by
  induction t generalizing blanks with
  | nil =>
    simp only [blanksThen?, Option.map_eq_some_iff, Prod.mk.injEq] at h
    obtain ⟨rest, hrest, rfl, rfl⟩ := h
    simpa using Text.stripPrefix?_eq_some hrest
  | cons c t ih =>
    unfold blanksThen? at h
    split at h
    case _ blanks' after' hmore =>
      simp only [Option.some.injEq, Prod.mk.injEq] at h
      obtain ⟨rfl, rfl⟩ := h
      split at hmore
      · simp [ih hmore]
      · cases hmore
    case _ =>
      simp only [Option.map_eq_some_iff, Prod.mk.injEq] at h
      obtain ⟨rest, hrest, rfl, rfl⟩ := h
      simpa using Text.stripPrefix?_eq_some hrest

/-- The shortest non-empty expression that blanks and `mark` follow: the expression, the
    blanks, and the text after the mark. -/
def expressionThen? (mark : Text) : Text → Option (Text × Text × Text)
  | [] => none
  | c :: t =>
    match blanksThen? mark t with
    | some (trail, after) => some ([c], trail, after)
    | none => (expressionThen? mark t).map fun (expression, rest) => (c :: expression, rest)

theorem expressionThen?_eq_some {mark t expression trail after : Text}
    (h : expressionThen? mark t = some (expression, trail, after)) :
    t = expression ++ trail ++ mark ++ after := by
  induction t generalizing expression with
  | nil => simp [expressionThen?] at h
  | cons c t ih =>
    unfold expressionThen? at h
    split at h
    case _ trail' after' hblanks =>
      simp only [Option.some.injEq, Prod.mk.injEq] at h
      obtain ⟨rfl, rfl, rfl⟩ := h
      simp [blanksThen?_eq_some hblanks]
    case _ =>
      simp only [Option.map_eq_some_iff, Prod.exists, Prod.mk.injEq] at h
      obtain ⟨e, _, _, hmore, rfl, rfl, rfl⟩ := h
      simp [ih hmore]

/-- The inside of a tag, with as many blanks before the expression as possible: those blanks,
    the expression, the blanks after it, and the text after the mark. -/
def insideThen? (mark : Text) : Text → Option (Text × Text × Text × Text)
  | [] => none
  | c :: t =>
    match if isBlank c then insideThen? mark t else none with
    | some (lead, rest) => some (c :: lead, rest)
    | none => (expressionThen? mark (c :: t)).map fun rest => ([], rest)

theorem insideThen?_eq_some {mark t lead expression trail after : Text}
    (h : insideThen? mark t = some (lead, expression, trail, after)) :
    t = lead ++ expression ++ trail ++ mark ++ after := by
  induction t generalizing lead with
  | nil => simp [insideThen?] at h
  | cons c t ih =>
    unfold insideThen? at h
    split at h
    case _ lead' rest hmore =>
      simp only [Option.some.injEq, Prod.mk.injEq] at h
      obtain ⟨rfl, rfl⟩ := h
      split at hmore
      · simp [ih hmore]
      · cases hmore
    case _ =>
      simp only [Option.map_eq_some_iff, Prod.exists, Prod.mk.injEq] at h
      obtain ⟨e, tr, af, hmore, rfl, rfl, rfl, rfl⟩ := h
      simpa using expressionThen?_eq_some hmore

/-- The tag whose opening marker has just been read, and the text after it. -/
def tagAfterOpening? (markers : Markers) (escaped : Bool) (t : Text) : Option (EchoTag × Text) :=
  if Text.contains markers.closing t then
    (insideThen? markers.closing t).map fun (lead, expression, trail, after) =>
      let (lineBreak, rest) := splitLineBreak after
      (⟨escaped, lead, expression, trail, lineBreak⟩, rest)
  else none

theorem tagAfterOpening?_eq_some {markers : Markers} {escaped : Bool} {t rest : Text}
    {tag : EchoTag} (h : markers.tagAfterOpening? escaped t = some (tag, rest)) :
    tag.escaped = escaped ∧ t = tag.inside ++ markers.closing ++ tag.lineBreak ++ rest := by
  unfold tagAfterOpening? at h
  split at h
  · simp only [Option.map_eq_some_iff, Prod.exists, Prod.mk.injEq] at h
    obtain ⟨lead, expression, trail, after, hinside, rfl, rfl⟩ := h
    refine ⟨rfl, ?_⟩
    rw [insideThen?_eq_some hinside]
    simp [EchoTag.inside, splitLineBreak_append]
  · cases h

/-- The tag whose opening marker is at the head of the text, and the text after it. -/
def tagFromOpening? (markers : Markers) (escaped : Bool) (t : Text) : Option (EchoTag × Text) :=
  (Text.stripPrefix? markers.opening t).bind (markers.tagAfterOpening? escaped)

theorem tagFromOpening?_eq_some {markers : Markers} {escaped : Bool} {t rest : Text}
    {tag : EchoTag} (h : markers.tagFromOpening? escaped t = some (tag, rest)) :
    tag.escaped = escaped ∧ t = tag.unescaped markers ++ rest := by
  obtain ⟨t', ht', htag⟩ := Option.bind_eq_some_iff.1 h
  obtain ⟨hescaped, hinside⟩ := tagAfterOpening?_eq_some htag
  refine ⟨hescaped, ?_⟩
  rw [Text.stripPrefix?_eq_some ht', hinside]
  simp [EchoTag.unescaped]

/-- The tag at the head of the text, and the text after it. With an escape marker in front,
    the tag is read with it if that is possible. -/
def tag? (markers : Markers) (t : Text) : Option (EchoTag × Text) :=
  match (Text.stripPrefix? [escapeMarker] t).bind (markers.tagFromOpening? true) with
  | some found => some found
  | none => markers.tagFromOpening? false t

theorem tag?_eq_some {markers : Markers} {t rest : Text} {tag : EchoTag}
    (h : markers.tag? t = some (tag, rest)) : t = tag.source markers ++ rest := by
  unfold tag? at h
  split at h
  case _ found hfound =>
    cases h
    obtain ⟨t', ht', htag⟩ := Option.bind_eq_some_iff.1 hfound
    obtain ⟨hescaped, htext⟩ := tagFromOpening?_eq_some htag
    rw [Text.stripPrefix?_eq_some ht', htext]
    simp [EchoTag.source, hescaped]
  case _ =>
    obtain ⟨hescaped, htext⟩ := tagFromOpening?_eq_some h
    simp [EchoTag.source, hescaped, htext]

theorem source_ne_nil (markers : Markers) (tag : EchoTag) : tag.source markers ≠ [] := by
  simp [EchoTag.source, EchoTag.unescaped, markers.opening_ne_nil]

/-- The first tag in the text: the text before it, the tag, and the text after it. -/
def nextTag? (markers : Markers) : Text → Option (Text × EchoTag × Text)
  | [] => none
  | c :: t =>
    match markers.tag? (c :: t) with
    | some (tag, rest) => some ([], tag, rest)
    | none => (nextTag? markers t).map fun (before, found) => (c :: before, found)

theorem nextTag?_eq_some {markers : Markers} {t before rest : Text} {tag : EchoTag}
    (h : markers.nextTag? t = some (before, tag, rest)) :
    t = before ++ tag.source markers ++ rest := by
  induction t generalizing before with
  | nil => simp [nextTag?] at h
  | cons c t ih =>
    unfold nextTag? at h
    split at h
    case _ tag' rest' htag =>
      simp only [Option.some.injEq, Prod.mk.injEq] at h
      obtain ⟨rfl, rfl, rfl⟩ := h
      simpa using tag?_eq_some htag
    case _ =>
      simp only [Option.map_eq_some_iff, Prod.exists, Prod.mk.injEq] at h
      obtain ⟨b, _, _, hmore, rfl, rfl, rfl⟩ := h
      simp [ih hmore]

/-- The tags of a text from left to right, each with the text before it since the last one,
    and the text after them all. -/
def splitTags (markers : Markers) (t : Text) : List (Text × EchoTag) × Text :=
  match _h : markers.nextTag? t with
  | none => ([], t)
  | some (before, tag, rest) =>
    let (parts, last) := splitTags markers rest
    ((before, tag) :: parts, last)
termination_by t.length
decreasing_by
  have hne := List.length_pos_iff.2 (source_ne_nil markers tag)
  rw [nextTag?_eq_some _h]
  simp only [List.length_append]
  omega

/-- The text that a list of tags was read from. -/
def unsplitTags (markers : Markers) (parts : List (Text × EchoTag)) (last : Text) : Text :=
  (parts.flatMap fun (before, tag) => before ++ tag.source markers) ++ last

theorem unsplitTags_splitTags (markers : Markers) (t : Text) :
    markers.unsplitTags (markers.splitTags t).1 (markers.splitTags t).2 = t := by
  fun_induction splitTags markers t with
  | case1 t h => simp [unsplitTags]
  | case2 t before tag rest h parts last hsplit ih =>
    rw [nextTag?_eq_some h]
    simp only [hsplit, unsplitTags] at ih ⊢
    simp [← ih]

end Markers

end Template
