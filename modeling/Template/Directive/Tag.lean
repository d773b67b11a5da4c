import Template.Directive.Argument
import Template.Tag
import Template.Text.Word

/-! # Directive tags

A directive tag is the introducer `<@` and a name, which spaces and tabs and a balanced
argument may follow; an escape marker may stand before it. Without an escape marker, the
introducer must not follow a word character. The tags of a text depend on the text alone, not
on which directives are known.
-/

namespace Template

/-- What follows the head of a directive tag. -/
inductive DirectiveArgument where
  | absent
  /-- A balanced group, with its parentheses. -/
  | given (text : Text)
  /-- A parenthesis that is never closed; it is not part of the tag. -/
  | unclosed
  deriving DecidableEq, Repr

namespace DirectiveArgument

/-- The argument text, with its parentheses. -/
def text? : DirectiveArgument → Option Text
  | given text => some text
  | absent | unclosed => none

end DirectiveArgument

/-- A directive tag as it is written. -/
structure DirectiveTag where
  /-- Whether the escape marker stands before it. -/
  escaped : Bool
  name : Text
  /-- Spaces and tabs after the name. -/
  spacing : Text
  argument : DirectiveArgument
  deriving DecidableEq, Repr

def directiveIntroducer : Text := ['<', '@']

namespace DirectiveTag

/-- The text of the tag without an escape marker. -/
def unescaped (tag : DirectiveTag) : Text :=
  directiveIntroducer ++ tag.name ++ tag.spacing ++ tag.argument.text?.getD []

def source (tag : DirectiveTag) : Text :=
  (if tag.escaped then [escapeMarker] else []) ++ tag.unescaped

/-- The argument at the head of the text, and the text after it. -/
def argumentOf (t : Text) : DirectiveArgument × Text :=
  match Text.group? t with
  | some (group, rest) => (.given group, rest)
  | none => (if t.head? == some '(' then .unclosed else .absent, t)

theorem argumentOf_append (t : Text) : (argumentOf t).1.text?.getD [] ++ (argumentOf t).2 = t := by
  unfold argumentOf
  split
  case _ group rest h => simpa [DirectiveArgument.text?] using (Text.group?_eq_some h).symm
  case _ => split <;> simp [DirectiveArgument.text?]

/-- Whether a character may stand between a name and its argument. -/
def isSpacing (c : Char) : Bool := c = ' ' || c = '\t'

/-- The tag whose introducer is at the head of the text, and the text after it. -/
def fromIntroducer? (escaped : Bool) (t : Text) : Option (DirectiveTag × Text) :=
  match Text.stripPrefix? directiveIntroducer t with
  | none => none
  | some t =>
    let name := t.takeWhile isWord
    if name = [] then none
    else
      let t := t.dropWhile isWord
      let (argument, rest) := argumentOf (t.dropWhile isSpacing)
      some (⟨escaped, name, t.takeWhile isSpacing, argument⟩, rest)

theorem fromIntroducer?_eq_some {escaped : Bool} {t rest : Text} {tag : DirectiveTag}
    (h : fromIntroducer? escaped t = some (tag, rest)) :
    tag.escaped = escaped ∧ t = tag.unescaped ++ rest := by
  unfold fromIntroducer? at h
  split at h
  · cases h
  case _ t' ht =>
    simp only at h
    split at h
    · cases h
    · cases h
      refine ⟨rfl, ?_⟩
      rw [Text.stripPrefix?_eq_some ht]
      simp [unescaped, argumentOf_append]

/-- The tag at the head of the text, and the text after it; `previous` is the character before
    the text. -/
def tag? (previous : Option Char) (t : Text) : Option (DirectiveTag × Text) :=
  match Text.stripPrefix? [escapeMarker] t with
  | some t => fromIntroducer? true t
  | none => if previous.any isWord then none else fromIntroducer? false t

theorem tag?_eq_some {previous : Option Char} {t rest : Text} {tag : DirectiveTag}
    (h : tag? previous t = some (tag, rest)) : t = tag.source ++ rest := by
  unfold tag? at h
  split at h
  case _ t' ht =>
    obtain ⟨hescaped, htext⟩ := fromIntroducer?_eq_some h
    rw [Text.stripPrefix?_eq_some ht, htext]
    simp [source, hescaped]
  case _ =>
    split at h
    · cases h
    · obtain ⟨hescaped, htext⟩ := fromIntroducer?_eq_some h
      simp [source, hescaped, htext]

theorem source_ne_nil (tag : DirectiveTag) : tag.source ≠ [] := by
  simp [source, unescaped, directiveIntroducer]

/-- The first tag in the text: the text before it, the tag, and the text after it. -/
def next? : (previous : Option Char) → Text → Option (Text × DirectiveTag × Text)
  | _, [] => none
  | previous, c :: t =>
    match tag? previous (c :: t) with
    | some (tag, rest) => some ([], tag, rest)
    | none => (next? (some c) t).map fun (before, found) => (c :: before, found)

theorem next?_eq_some {previous : Option Char} {t before rest : Text} {tag : DirectiveTag}
    (h : next? previous t = some (before, tag, rest)) : t = before ++ tag.source ++ rest := by
  induction t generalizing previous before with
  | nil => simp [next?] at h
  | cons c t ih =>
    unfold next? at h
    split at h
    case _ tag' rest' htag =>
      cases h
      simpa using tag?_eq_some htag
    case _ =>
      simp only [Option.map_eq_some_iff, Prod.exists, Prod.mk.injEq] at h
      obtain ⟨b, _, _, hmore, rfl, rfl, rfl⟩ := h
      simp [ih hmore]

/-- The tags of a text from left to right, each with the text before it since the last one,
    and the text after them all. -/
def splitAfter (previous : Option Char) (t : Text) : List (Text × DirectiveTag) × Text :=
  match _h : next? previous t with
  | none => ([], t)
  | some (before, tag, rest) =>
    let (parts, last) := splitAfter tag.source.getLast? rest
    ((before, tag) :: parts, last)
termination_by t.length
decreasing_by
  have hne := List.length_pos_iff.2 (source_ne_nil tag)
  rw [next?_eq_some _h]
  simp only [List.length_append]
  omega

/-- The tags of a whole text. -/
def split (t : Text) : List (Text × DirectiveTag) × Text := splitAfter none t

/-- The text that a list of tags was read from. -/
def unsplit (parts : List (Text × DirectiveTag)) (last : Text) : Text :=
  (parts.flatMap fun (before, tag) => before ++ tag.source) ++ last

theorem unsplit_splitAfter (previous : Option Char) (t : Text) :
    unsplit (splitAfter previous t).1 (splitAfter previous t).2 = t := by
  fun_induction splitAfter previous t with
  | case1 => simp [unsplit]
  | case2 previous t before tag rest h parts last hsplit ih =>
    rw [next?_eq_some h]
    simp only [hsplit, unsplit] at ih ⊢
    simp [← ih]

end DirectiveTag

end Template
