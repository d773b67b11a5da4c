import Template.Text.Basic

/-! # Arguments

The argument of a directive is a group in balanced parentheses. Parentheses inside quotes do
not count, and in quotes a backslash takes the character after it.
-/

namespace Template

namespace Text

/-- The expression without one pair of enclosing parentheses, if it has one. -/
def stripParentheses (expression : Text) : Text :=
  match expression with
  | '(' :: rest => (stripSuffix? [')'] rest).getD expression
  | _ => expression

/-- A group up to the parenthesis that closes it, and the text after it: `open` more groups are
    open around the innermost one, and `quote` tells which quotes are open. -/
def closeGroup? : (groups : Nat) → (quote : Option Char) → Text → Option (Text × Text)
  | _, _, [] => none
  | groups, some quote, c :: t =>
    if c = '\\' then
      match t with
      | [] => none
      | d :: t => (closeGroup? groups (some quote) t).map fun (group, rest) => (c :: d :: group, rest)
    else
      (closeGroup? groups (if c = quote then none else some quote) t).map fun (group, rest) =>
        (c :: group, rest)
  | groups, none, c :: t =>
    if c = ')' then
      match groups with
      | 0 => some ([c], t)
      | groups + 1 => (closeGroup? groups none t).map fun (group, rest) => (c :: group, rest)
    else
      (closeGroup? (if c = '(' then groups + 1 else groups)
        (if c = '\'' ∨ c = '"' then some c else none) t).map fun (group, rest) => (c :: group, rest)

theorem closeGroup?_eq_some {groups : Nat} {quote : Option Char} {t group rest : Text}
    (h : closeGroup? groups quote t = some (group, rest)) : t = group ++ rest := by
  fun_induction closeGroup? groups quote t generalizing group rest with
  | case1 => cases h
  | case2 => cases h
  | case3 groups quote d t ih =>
    simp only [Option.map_eq_some_iff, Prod.exists, Prod.mk.injEq] at h
    obtain ⟨g, r, hg, rfl, rfl⟩ := h
    simp [ih hg]
  | case4 groups quote c t _ ih =>
    simp only [Option.map_eq_some_iff, Prod.exists, Prod.mk.injEq] at h
    obtain ⟨g, r, hg, rfl, rfl⟩ := h
    simp [ih hg]
  | case5 =>
    simp only [Option.some.injEq, Prod.mk.injEq] at h
    obtain ⟨rfl, rfl⟩ := h
    rfl
  | case6 t groups ih =>
    simp only [Option.map_eq_some_iff, Prod.exists, Prod.mk.injEq] at h
    obtain ⟨g, r, hg, rfl, rfl⟩ := h
    simp [ih hg]
  | case7 groups c t _ ih =>
    simp only [Option.map_eq_some_iff, Prod.exists, Prod.mk.injEq] at h
    obtain ⟨g, r, hg, rfl, rfl⟩ := h
    simp [ih hg]

/-- The balanced group at the head of the text, with its parentheses, and the text after it. -/
def group? : Text → Option (Text × Text)
  | '(' :: t => (closeGroup? 0 none t).map fun (group, rest) => ('(' :: group, rest)
  | _ => none

theorem group?_eq_some {t group rest : Text} (h : group? t = some (group, rest)) :
    t = group ++ rest := by
  unfold group? at h
  split at h
  · simp only [Option.map_eq_some_iff, Prod.exists, Prod.mk.injEq] at h
    obtain ⟨g, r, hg, rfl, rfl⟩ := h
    simp [closeGroup?_eq_some hg]
  · cases h

/-- Byte position of the parenthesis that closes the group opened at a byte position. -/
def matchingParen? (t : Text) (position : Nat) : Option Nat := do
  let (group, _) ← group? (← dropBytes? position t)
  pure (position + byteLength group - 1)

end Text

end Template
