import Template.Text.Blank

/-! # Spans

A template is cut into spans: markup, and code that is already written natively. Native code
starts at `<?=`, or at `<?php` in any letter case before a blank or the end, and lasts up to
its closing `?>`. Putting the spans together gives the template back.
-/

namespace Template

inductive SpanKind where
  /-- Template text, in which tags are looked for. -/
  | markup
  /-- Code that is copied as it is. -/
  | native
  deriving DecidableEq, Repr

structure Span where
  kind : SpanKind
  text : Text
  /-- Byte position of its start in the template. -/
  offset : Nat
  deriving DecidableEq, Repr

/-- Whether the span holds template text. -/
def Span.isMarkup (span : Span) : Bool := span.kind == .markup

/-- Where a reader of native code stands. -/
inductive CodeMode where
  | code
  /-- Inside quotes of the given kind. -/
  | quoted (quote : Char)
  /-- In a comment up to the end of the line. -/
  | lineComment
  /-- In a comment up to its end mark. -/
  | blockComment
  deriving DecidableEq, Repr

namespace CodeMode

/-- What one step of reading native code takes. -/
inductive Step where
  | close
  /-- One character, and the mode after it. -/
  | one (mode : CodeMode)
  /-- Two characters, and the mode after them. -/
  | two (mode : CodeMode)
  deriving DecidableEq, Repr

/-- The step at character `c` before `next`. A closing mark counts in code and in a line
    comment; a backslash in quotes takes what follows it. -/
def step : CodeMode → (c : Char) → (next : Option Char) → Step
  | code, c, next =>
    if c = '?' ∧ next = some '>' then .close
    else if c = '\'' ∨ c = '"' then .one (quoted c)
    else if c = '#' then .one lineComment
    else if c = '/' ∧ next = some '/' then .two lineComment
    else if c = '/' ∧ next = some '*' then .two blockComment
    else .one code
  | quoted quote, c, _ =>
    if c = '\\' then .two (quoted quote)
    else if c = quote then .one code
    else .one (quoted quote)
  | lineComment, c, next =>
    if c = '\n' then .one code
    else if c = '?' ∧ next = some '>' then .close
    else .one lineComment
  | blockComment, c, next =>
    if c = '*' ∧ next = some '/' then .two code
    else .one blockComment

end CodeMode

/-- The line break at the start of a text, and what follows it. -/
def splitLineBreak : Text → Text × Text
  | '\r' :: '\n' :: t => (['\r', '\n'], t)
  | '\n' :: t => (['\n'], t)
  | t => ([], t)

theorem splitLineBreak_append (t : Text) : (splitLineBreak t).1 ++ (splitLineBreak t).2 = t := by
  unfold splitLineBreak
  split <;> rfl

/-- Native code up to and with its closing mark and one line break right after it, and what
    follows. Code that is never closed takes everything. -/
def splitCode (mode : CodeMode) : Text → Text × Text
  | [] => ([], [])
  | c :: t =>
    match mode.step c t.head? with
    | .close =>
      let (lineBreak, rest) := splitLineBreak (t.drop 1)
      (c :: t.take 1 ++ lineBreak, rest)
    | .one next =>
      let (code, rest) := splitCode next t
      (c :: code, rest)
    | .two next =>
      match t with
      | [] => ([c], [])
      | d :: t =>
        let (code, rest) := splitCode next t
        (c :: d :: code, rest)

theorem splitCode_append (mode : CodeMode) (t : Text) :
    (splitCode mode t).1 ++ (splitCode mode t).2 = t := by
  fun_induction splitCode mode t with
  | case1 => rfl
  | case2 mode c t _ lineBreak rest hbreak =>
    have := splitLineBreak_append (t.drop 1)
    rw [hbreak] at this
    cases t <;> simp_all
  | case3 mode c t next _ code rest hcode ih => simpa [hcode] using ih
  | case4 => rfl
  | case5 mode c next d t code rest hcode _ ih => simpa [hcode] using ih

/-- Whether native code starts at the head of the text. -/
def opensCode : Text → Bool
  | '<' :: '?' :: '=' :: _ => true
  | '<' :: '?' :: p :: h :: q :: rest =>
    p.toLower == 'p' && h.toLower == 'h' && q.toLower == 'p' && rest.head?.all isBlank
  | _ => false

/-- The text before the first native code, that code, and the text after it. -/
def nextCode? : Text → Option (Text × Text × Text)
  | [] => none
  | c :: t =>
    if opensCode (c :: t) then
      let (code, rest) := splitCode .code (t.drop 1)
      some ([], c :: t.take 1 ++ code, rest)
    else (nextCode? t).map fun (before, code, rest) => (c :: before, code, rest)

theorem nextCode?_append {t before code rest : Text} (h : nextCode? t = some (before, code, rest)) :
    t = before ++ code ++ rest := by
  fun_induction nextCode? t generalizing before code rest with
  | case1 => simp at h
  | case2 c t _ code' rest' hcode =>
    have := splitCode_append .code (t.drop 1)
    simp only [hcode] at this
    simp only [Option.some.injEq, Prod.mk.injEq] at h
    obtain ⟨rfl, rfl, rfl⟩ := h
    cases t <;> simp_all
  | case3 c t _ ih =>
    simp only [Option.map_eq_some_iff, Prod.exists, Prod.mk.injEq] at h
    obtain ⟨b, n, r, hnext, rfl, rfl, rfl⟩ := h
    simp [ih hnext]

theorem nextCode?_ne_nil {t before code rest : Text} (h : nextCode? t = some (before, code, rest)) :
    code ≠ [] := by
  fun_induction nextCode? t generalizing before code rest with
  | case1 => simp at h
  | case2 c t _ code' rest' hcode =>
    simp only [Option.some.injEq, Prod.mk.injEq] at h
    obtain ⟨_, rfl, _⟩ := h
    simp
  | case3 c t _ ih =>
    simp only [Option.map_eq_some_iff, Prod.exists, Prod.mk.injEq] at h
    obtain ⟨b, n, r, hnext, _, rfl, _⟩ := h
    exact ih hnext

namespace Span

/-- A span of markup, if the text is not empty. -/
def markup (text : Text) (offset : Nat) : List Span :=
  if text = [] then [] else [⟨.markup, text, offset⟩]

/-- The spans of a text that starts at a byte position of the template. -/
def ofTextAt (offset : Nat) (t : Text) : List Span :=
  match _h : nextCode? t with
  | none => markup t offset
  | some (before, code, rest) =>
    let start := offset + Text.byteLength before
    markup before offset ++ ⟨.native, code, start⟩ ::
      ofTextAt (start + Text.byteLength code) rest
termination_by t.length
decreasing_by
  have hne := List.length_pos_iff.2 (nextCode?_ne_nil _h)
  rw [nextCode?_append _h]
  simp only [List.length_append]
  omega

/-- The spans of a template, in order. -/
def ofText (t : Text) : List Span := ofTextAt 0 t

end Span

end Template
