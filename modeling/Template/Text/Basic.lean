/-! # Text

Text is a list of characters; positions in it are counted in UTF-8 bytes. This module
holds the operations that look for a mark inside a text: what follows it as a leading
mark, the first place it stands, and its replacement. Each comes with the equation that
puts the parts together again.
-/

namespace Template

/-- Text as the list of its characters. -/
abbrev Text := List Char

namespace Text

/-- The text of a string literal. -/
abbrev ofString (s : String) : Text := s.toList

/-- Number of bytes of the UTF-8 form. -/
def byteLength (t : Text) : Nat := t.foldr (fun c n => c.utf8Size + n) 0

@[simp] theorem byteLength_nil : byteLength [] = 0 := rfl

@[simp] theorem byteLength_cons (c : Char) (t : Text) :
    byteLength (c :: t) = c.utf8Size + byteLength t := rfl

@[simp] theorem byteLength_append (s t : Text) :
    byteLength (s ++ t) = byteLength s + byteLength t := by
  induction s with
  | nil => simp
  | cons c s ih => rw [List.cons_append, byteLength_cons, ih, byteLength_cons, Nat.add_assoc]

/-- What follows `mark`, when the text begins with it. -/
def stripPrefix? : (mark t : Text) → Option Text
  | [], t => some t
  | _ :: _, [] => none
  | m :: mark, c :: t => if m = c then stripPrefix? mark t else none

theorem stripPrefix?_eq_some {mark t rest : Text} (h : stripPrefix? mark t = some rest) :
    t = mark ++ rest := by
  fun_induction stripPrefix? mark t with
  | case1 => simp_all
  | case2 => simp at h
  | case3 mark c t ih => simp [ih h]
  | case4 => simp at h

@[simp] theorem stripPrefix?_append (mark rest : Text) :
    stripPrefix? mark (mark ++ rest) = some rest := by
  induction mark with
  | nil => simp [stripPrefix?]
  | cons m mark ih => simp [stripPrefix?, ih]

/-- Whether the text begins with `mark`. -/
def startsWith (mark t : Text) : Bool := (stripPrefix? mark t).isSome

/-- What precedes `mark`, when the text ends with it. -/
def stripSuffix? (mark t : Text) : Option Text :=
  (stripPrefix? mark.reverse t.reverse).map List.reverse

theorem stripSuffix?_eq_some {mark t front : Text} (h : stripSuffix? mark t = some front) :
    t = front ++ mark := by
  obtain ⟨r, hr, rfl⟩ := Option.map_eq_some_iff.1 h
  simpa using congrArg List.reverse (stripPrefix?_eq_some hr)

/-- The text around the first place where `mark` stands: what is before it and after it. -/
def cut? (mark : Text) (t : Text) : Option (Text × Text) :=
  match stripPrefix? mark t with
  | some rest => some ([], rest)
  | none =>
    match t with
    | [] => none
    | c :: t => (cut? mark t).map fun (before, after) => (c :: before, after)

theorem cut?_eq_some {mark t before after : Text} (h : cut? mark t = some (before, after)) :
    t = before ++ mark ++ after := by
  fun_induction cut? mark t generalizing before after with
  | case1 t rest hrest =>
    simp only [Option.some.injEq, Prod.mk.injEq] at h
    obtain ⟨rfl, rfl⟩ := h
    simpa using stripPrefix?_eq_some hrest
  | case2 => simp at h
  | case3 c t _ ih =>
    simp only [Option.map_eq_some_iff, Prod.exists, Prod.mk.injEq] at h
    obtain ⟨b, a, hcut, rfl, rfl⟩ := h
    simp [ih hcut]

/-- What follows the first mark is shorter than the text, unless the mark is empty. -/
theorem length_after_lt {mark t before after : Text} (hmark : mark ≠ [])
    (h : cut? mark t = some (before, after)) : after.length < t.length := by
  have := List.length_pos_iff.2 hmark
  rw [cut?_eq_some h]
  simp only [List.length_append]
  omega

/-- Whether `mark` stands anywhere in the text. -/
def contains (mark t : Text) : Bool := (cut? mark t).isSome

/-- The text with `c` in place of every `d`. -/
def replaceChar (d c : Char) (t : Text) : Text := t.map fun x => if x = d then c else x

/-- The text with `replacement` in place of the first `mark`, if there is one. -/
def replaceFirst (mark replacement t : Text) : Text :=
  match cut? mark t with
  | some (before, after) => before ++ replacement ++ after
  | none => t

/-- The text with `replacement` in place of every `mark`, read left to right. The empty
    mark stands before every character and at the end. -/
def replaceAll (mark replacement : Text) (t : Text) : Text :=
  if _hmark : mark = [] then
    replacement ++ t.flatMap fun c => c :: replacement
  else
    match _h : cut? mark t with
    | some (before, after) => before ++ replacement ++ replaceAll mark replacement after
    | none => t
termination_by t.length
decreasing_by exact length_after_lt _hmark _h

/-- The texts with `separator` between each two neighbours. -/
def join (separator : Text) : List Text → Text
  | [] => []
  | [t] => t
  | t :: ts => t ++ separator ++ join separator ts

/-- The pieces of the text between the characters equal to `d`. -/
def splitOn (d : Char) : Text → List Text
  | [] => [[]]
  | c :: t =>
    match splitOn d t with
    | [] => [[c]]
    | piece :: pieces => if c = d then [] :: piece :: pieces else (c :: piece) :: pieces

/-- The text from the byte position `n` on, when a character begins there or the text ends
    there. -/
def dropBytes? : (n : Nat) → Text → Option Text
  | 0, t => some t
  | _ + 1, [] => none
  | n + 1, c :: t => if c.utf8Size ≤ n + 1 then dropBytes? (n + 1 - c.utf8Size) t else none

/-- Order of texts by their first different character, a shorter text before its extensions.
    The UTF-8 forms are ordered the same way. -/
def le : Text → Text → Bool
  | [], _ => true
  | _ :: _, [] => false
  | c :: s, d :: t => if c = d then le s t else decide (c < d)

def sort (ts : List Text) : List Text := ts.mergeSort le

def ofNat (n : Nat) : Text := Nat.toDigits 10 n

/-- Digits of a number in the given base, with zeros in front up to `width` digits. -/
def padded (base width n : Nat) : Text :=
  let digits := Nat.toDigits base n
  List.replicate (width - digits.length) '0' ++ digits

end Text

end Template
