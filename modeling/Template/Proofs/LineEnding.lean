import Mathlib.Data.List.Induction
import Template.Directive.Argument
import Template.Proofs.Text
import Template.Text.Blank

/-! # Line endings

A line break is a line feed, or a carriage return and a line feed. A search for marks that hold neither
character finds the same in a text whichever way its line breaks are written, and what it finds is written
in that way too.
-/

namespace Template

namespace Text

/-- The text with a carriage return before every line feed. -/
def crlf : Text → Text
  | [] => []
  | c :: t => if c = '\n' then '\r' :: '\n' :: crlf t else c :: crlf t

/-- The text without the carriage returns that stand before line feeds. -/
def lf : Text → Text
  | '\r' :: '\n' :: t => '\n' :: lf t
  | c :: t => c :: lf t
  | [] => []

/-- No character of the mark is part of a line break. -/
structure Unbroken (mark : Text) : Prop where
  carriageReturn : '\r' ∉ mark
  lineFeed : '\n' ∉ mark

instance (mark : Text) : Decidable (Unbroken mark) :=
  decidable_of_iff ('\r' ∉ mark ∧ '\n' ∉ mark)
    ⟨fun h => ⟨h.1, h.2⟩, fun h => ⟨h.carriageReturn, h.lineFeed⟩⟩

variable {c : Char} {mark s t u v : Text} {p : Char → Bool}

/-! ## Texts with the other line endings -/

@[simp] theorem crlf_nil : crlf [] = [] := rfl

@[simp] theorem crlf_lineFeed (t : Text) : crlf ('\n' :: t) = '\r' :: '\n' :: crlf t := rfl

theorem crlf_cons (h : c ≠ '\n') (t : Text) : crlf (c :: t) = c :: crlf t := if_neg h

@[simp] theorem crlf_append (s t : Text) : crlf (s ++ t) = crlf s ++ crlf t := by
  induction s with
  | nil => rfl
  | cons c s ih =>
    by_cases hc : c = '\n'
    case pos =>
      rw [hc, List.cons_append, crlf_lineFeed, crlf_lineFeed, ih]
      rfl
    case neg => rw [List.cons_append, crlf_cons hc, crlf_cons hc, ih, List.cons_append]

/-- A text without line feeds is written in one way only. -/
theorem crlf_of_not_mem (h : '\n' ∉ t) : crlf t = t := by
  induction t with
  | nil => rfl
  | cons c t ih =>
    rw [List.mem_cons, not_or] at h
    rw [crlf_cons (Ne.symm h.1), ih h.2]

theorem crlf_eq_self_iff : crlf t = t ↔ '\n' ∉ t := by
  refine ⟨fun h => ?_, crlf_of_not_mem⟩
  induction t with
  | nil => exact List.not_mem_nil
  | cons c t ih =>
    by_cases hc : c = '\n'
    case pos =>
      rw [hc, crlf_lineFeed, List.cons.injEq] at h
      exact absurd h.1 (by decide)
    case neg =>
      rw [crlf_cons hc, List.cons.injEq] at h
      simp [ih h.2, Ne.symm hc]

theorem crlf_eq_nil_iff : crlf t = [] ↔ t = [] := by
  cases t with
  | nil => exact iff_of_true rfl rfl
  | cons c t =>
    by_cases hc : c = '\n'
    case pos =>
      rw [hc, crlf_lineFeed]
      simp
    case neg =>
      rw [crlf_cons hc]
      simp

theorem head?_crlf (t : Text) : (crlf t).head? = if t.head? = some '\n' then some '\r' else t.head? := by
  cases t with
  | nil => rfl
  | cons c t =>
    by_cases hc : c = '\n'
    case pos => simp [hc]
    case neg => simp [crlf_cons hc, hc]

theorem head?_crlf_ne (t : Text) : (crlf t).head? ≠ some '\n' := by
  rw [head?_crlf]
  split
  case isTrue => simp
  case isFalse h => exact h

theorem getLast?_crlf (t : Text) : (crlf t).getLast? = t.getLast? := by
  induction t using List.reverseRecOn with
  | nil => rfl
  | append_singleton t c =>
    rw [crlf_append, List.getLast?_concat]
    by_cases hc : c = '\n'
    case pos => simp [hc]
    case neg => simp [crlf_cons hc]

/-- The line endings can be written differently without a change of what the text is. -/
inductive Respelled : Text → Text → Prop where
  | nil : Respelled [] []
  | cons {c : Char} {t u : Text} (hc : c ≠ '\r') (h : Respelled t u) : Respelled (c :: t) (c :: u)
  | lineFeed {t u : Text} (h : Respelled t u) : Respelled ('\n' :: t) ('\r' :: '\n' :: u)

theorem Respelled.append (h : Respelled s u) (h' : Respelled t v) : Respelled (s ++ t) (u ++ v) := by
  induction h with
  | nil => exact h'
  | cons hc _ ih => exact .cons hc ih
  | lineFeed _ ih => exact .lineFeed ih

theorem Respelled.refl (h : '\r' ∉ t) : Respelled t t := by
  induction t with
  | nil => exact .nil
  | cons c t ih =>
    rw [List.mem_cons, not_or] at h
    exact .cons (Ne.symm h.1) (ih h.2)

theorem respelled_crlf (h : '\r' ∉ t) : Respelled t (crlf t) := by
  induction t with
  | nil => exact .nil
  | cons c t ih =>
    rw [List.mem_cons, not_or] at h
    by_cases hc : c = '\n'
    case pos =>
      subst hc
      exact .lineFeed (ih h.2)
    case neg =>
      rw [crlf_cons hc]
      exact .cons (Ne.symm h.1) (ih h.2)

theorem lf_cons (h : c ≠ '\r') (t : Text) : lf (c :: t) = c :: lf t := by
  rw [lf]
  exact fun _ hreturn _ => h hreturn

/-- Whichever way the line endings are written, the text can be read off. -/
theorem Respelled.lf_eq (h : Respelled t u) : lf u = t := by
  induction h with
  | nil => rfl
  | cons hc _ ih => rw [lf_cons hc, ih]
  | lineFeed _ ih => rw [lf, ih]

/-! ## Searches -/

theorem stripPrefix?_crlf (h : Unbroken mark) (t : Text) :
    stripPrefix? mark (crlf t) = (stripPrefix? mark t).map crlf := by
  induction mark generalizing t with
  | nil => rfl
  | cons m mark ih =>
    obtain ⟨hreturn, hfeed⟩ := h
    rw [List.mem_cons, not_or] at hreturn hfeed
    cases t with
    | nil => rfl
    | cons c t =>
      by_cases hc : c = '\n'
      case pos =>
        rw [hc, crlf_lineFeed, stripPrefix?, stripPrefix?, if_neg (Ne.symm hreturn.1), if_neg (Ne.symm hfeed.1)]
        rfl
      case neg =>
        rw [crlf_cons hc, stripPrefix?, stripPrefix?]
        split
        case isTrue => exact ih ⟨hreturn.2, hfeed.2⟩ t
        case isFalse => rfl

/-- No mark stands at a part of a line break. -/
theorem stripPrefix?_of_lineBreak (h : Unbroken mark) (hmark : mark ≠ []) (hc : c = '\r' ∨ c = '\n') (t : Text) :
    stripPrefix? mark (c :: t) = none := by
  obtain ⟨m, mark, rfl⟩ := List.exists_cons_of_ne_nil hmark
  have hm : m ≠ c := by
    rintro rfl
    rcases hc with rfl | rfl
    · exact h.carriageReturn List.mem_cons_self
    · exact h.lineFeed List.mem_cons_self
  rw [stripPrefix?, if_neg hm]

theorem cut?_cons_of_none (h : stripPrefix? mark (c :: t) = none) :
    cut? mark (c :: t) = (cut? mark t).map fun (before, after) => (c :: before, after) := by
  rw [cut?, h]

/-- What a search has passed, and what it has found there. -/
theorem map_cons_crlf {α : Type} {f : α → α} (hc : c ≠ '\n') (found : Option (Text × α)) :
    ((found.map (Prod.map crlf f)).map fun (before, rest) => (c :: before, rest)) =
      (found.map fun (before, rest) => (c :: before, rest)).map (Prod.map crlf f) := by
  cases found with
  | none => rfl
  | some found => simp [crlf_cons hc]

theorem map_lineBreak_crlf {α : Type} {f : α → α} (found : Option (Text × α)) :
    (((found.map (Prod.map crlf f)).map fun (before, rest) => ('\n' :: before, rest)).map
        fun (before, rest) => ('\r' :: before, rest)) =
      (found.map fun (before, rest) => ('\n' :: before, rest)).map (Prod.map crlf f) := by
  cases found <;> rfl

theorem cut?_crlf (h : Unbroken mark) (hmark : mark ≠ []) (t : Text) :
    cut? mark (crlf t) = (cut? mark t).map (Prod.map crlf crlf) := by
  induction t with
  | nil =>
    obtain ⟨m, mark, rfl⟩ := List.exists_cons_of_ne_nil hmark
    rfl
  | cons c t ih =>
    by_cases hc : c = '\n'
    case pos =>
      rw [hc, crlf_lineFeed, cut?_cons_of_none (stripPrefix?_of_lineBreak h hmark (.inl rfl) _),
        cut?_cons_of_none (stripPrefix?_of_lineBreak h hmark (.inr rfl) _),
        cut?_cons_of_none (stripPrefix?_of_lineBreak h hmark (.inr rfl) _), ih]
      exact map_lineBreak_crlf _
    case neg =>
      have hstrip := stripPrefix?_crlf h (c :: t)
      rw [crlf_cons hc] at hstrip ⊢
      cases hfound : stripPrefix? mark (c :: t) with
      | none =>
        rw [hfound] at hstrip
        rw [cut?_cons_of_none hstrip, cut?_cons_of_none hfound, ih]
        exact map_cons_crlf hc _
      | some rest =>
        rw [hfound] at hstrip
        rw [cut?, cut?, hstrip, hfound]
        rfl

theorem contains_crlf (h : Unbroken mark) (hmark : mark ≠ []) (t : Text) : contains mark (crlf t) = contains mark t := by
  rw [contains, contains, cut?_crlf h hmark, Option.isSome_map]

section

variable (hreturn : p '\r' = false) (hfeed : p '\n' = false)

include hreturn hfeed

theorem takeWhile_crlf (t : Text) : (crlf t).takeWhile p = t.takeWhile p := by
  induction t with
  | nil => rfl
  | cons c t ih =>
    by_cases hc : c = '\n'
    case pos =>
      rw [hc, crlf_lineFeed, List.takeWhile_cons_of_neg (by simp [hreturn]), List.takeWhile_cons_of_neg (by simp [hfeed])]
    case neg => rw [crlf_cons hc, List.takeWhile_cons, List.takeWhile_cons, ih]

theorem dropWhile_crlf (t : Text) : (crlf t).dropWhile p = crlf (t.dropWhile p) := by
  induction t with
  | nil => rfl
  | cons c t ih =>
    by_cases hc : c = '\n'
    case pos =>
      rw [hc, crlf_lineFeed, List.dropWhile_cons_of_neg (by simp [hreturn]), List.dropWhile_cons_of_neg (by simp [hfeed]),
        crlf_lineFeed]
    case neg =>
      rw [crlf_cons hc, List.dropWhile_cons, List.dropWhile_cons, ih]
      split
      case isTrue => rfl
      case isFalse => rw [crlf_cons hc]

end

theorem isAllBlank_crlf (t : Text) : isAllBlank (crlf t) = isAllBlank t := by
  unfold isAllBlank
  induction t with
  | nil => rfl
  | cons c t ih =>
    by_cases hc : c = '\n'
    case pos =>
      have hreturn : isBlank '\r' = true := by decide
      have hfeed : isBlank '\n' = true := by decide
      rw [hc, crlf_lineFeed, List.all_cons, List.all_cons, List.all_cons, ih, hreturn, hfeed, Bool.true_and, Bool.true_and]
    case neg => rw [crlf_cons hc, List.all_cons, List.all_cons, ih]

/-! ## Arguments -/

theorem stripSuffix?_concat (t : Text) (c d : Char) : stripSuffix? [d] (t ++ [c]) = if d = c then some t else none := by
  unfold stripSuffix?
  rw [List.reverse_concat]
  change (if d = c then stripPrefix? [] t.reverse else none).map List.reverse = _
  split
  case isTrue => simp [stripPrefix?]
  case isFalse => rfl

theorem stripSuffix?_crlf {d : Char} (hfeed : d ≠ '\n') (t : Text) :
    stripSuffix? [d] (crlf t) = (stripSuffix? [d] t).map crlf := by
  induction t using List.reverseRecOn with
  | nil => rfl
  | append_singleton t c =>
    rw [crlf_append, stripSuffix?_concat]
    by_cases hc : c = '\n'
    case pos =>
      have hbreak : crlf t ++ crlf ['\n'] = crlf t ++ ['\r'] ++ ['\n'] := by simp
      rw [hc, if_neg hfeed, hbreak, stripSuffix?_concat, if_neg hfeed]
      rfl
    case neg =>
      rw [crlf_cons hc, crlf_nil, stripSuffix?_concat]
      split <;> rfl

theorem stripParentheses_crlf (t : Text) : stripParentheses (crlf t) = crlf (stripParentheses t) := by
  cases t with
  | nil => rfl
  | cons c t =>
    by_cases hc : c = '('
    case pos =>
      subst hc
      rw [crlf_cons (by decide)]
      change (stripSuffix? [')'] (crlf t)).getD ('(' :: crlf t) = crlf ((stripSuffix? [')'] t).getD ('(' :: t))
      rw [stripSuffix?_crlf (by decide)]
      cases stripSuffix? [')'] t with
      | none => rw [Option.map_none, Option.getD_none, Option.getD_none, crlf_cons (by decide)]
      | some inside => rfl
    case neg =>
      have hkept : stripParentheses (c :: t) = c :: t := by
        unfold stripParentheses
        split
        case h_1 heq => exact absurd (List.cons.inj heq).1 hc
        case h_2 => rfl
      rw [hkept]
      unfold stripParentheses
      split
      case h_1 rest heq =>
        have hhead := head?_crlf (c :: t)
        rw [heq] at hhead
        simp only [List.head?_cons, Option.some.injEq] at hhead
        split at hhead
        case isTrue => cases hhead
        case isFalse => exact absurd (Option.some.inj hhead).symm hc
      case h_2 => rfl

theorem closeGroup?_of_quoted {quote : Char} (hc : c ≠ '\\') (groups : Nat) (t : Text) :
    closeGroup? groups (some quote) (c :: t) =
      (closeGroup? groups (if c = quote then none else some quote) t).map fun (group, rest) => (c :: group, rest) := by
  rw [closeGroup?.eq_def]
  exact if_neg hc

theorem closeGroup?_of_plain (hc : c ≠ ')') (groups : Nat) (t : Text) :
    closeGroup? groups none (c :: t) =
      (closeGroup? (if c = '(' then groups + 1 else groups) (if c = '\'' ∨ c = '"' then some c else none) t).map
        fun (group, rest) => (c :: group, rest) := by
  rw [closeGroup?.eq_def]
  exact if_neg hc

/-- In a group a part of a line break is taken like any other character. -/
theorem closeGroup?_lineBreak (groups : Nat) {quote : Option Char} (hquote : ∀ q ∈ quote, Unbroken [q])
    (hc : c = '\r' ∨ c = '\n') (t : Text) :
    closeGroup? groups quote (c :: t) = (closeGroup? groups quote t).map fun (group, rest) => (c :: group, rest) := by
  cases quote with
  | none =>
    have hplain : c ≠ ')' ∧ c ≠ '(' ∧ ¬ (c = '\'' ∨ c = '"') := by
      rcases hc with rfl | rfl <;> decide
    rw [closeGroup?_of_plain hplain.1, if_neg hplain.2.1, if_neg hplain.2.2]
  | some q =>
    obtain ⟨hreturn, hfeed⟩ := hquote q rfl
    rw [List.mem_singleton] at hreturn hfeed
    have hplain : c ≠ '\\' ∧ c ≠ q := by
      rcases hc with rfl | rfl
      · exact ⟨by decide, hreturn⟩
      · exact ⟨by decide, hfeed⟩
    rw [closeGroup?_of_quoted hplain.1, if_neg hplain.2]

theorem closeGroup?_crlf (groups : Nat) {quote : Option Char} (hquote : ∀ q ∈ quote, Unbroken [q]) (t : Text) :
    closeGroup? groups quote (crlf t) = (closeGroup? groups quote t).map (Prod.map crlf crlf) := by
  fun_induction closeGroup? groups quote t with
  | case1 => simp [closeGroup?]
  | case2 groups quote => simp [closeGroup?, crlf_cons]
  | case3 groups quote d t ih =>
    by_cases hd : d = '\n'
    case pos =>
      subst hd
      rw [crlf_cons (by decide), crlf_lineFeed, closeGroup?, if_pos rfl]
      dsimp only
      rw [closeGroup?_lineBreak groups hquote (.inr rfl), ih hquote]
      cases closeGroup? groups (some quote) t with
      | none => rfl
      | some found => simp [crlf_cons]
    case neg =>
      rw [crlf_cons (by decide), crlf_cons hd, closeGroup?, if_pos rfl]
      dsimp only
      rw [ih hquote]
      cases closeGroup? groups (some quote) t with
      | none => rfl
      | some found => simp [crlf_cons, hd]
  | case4 groups quote c t hc ih =>
    by_cases hfeed : c = '\n'
    case pos =>
      subst hfeed
      have hne : '\n' ≠ quote := fun heq => (hquote quote rfl).lineFeed (heq ▸ List.mem_cons_self)
      rw [if_neg hne] at ih ⊢
      rw [crlf_lineFeed, closeGroup?_lineBreak groups hquote (.inl rfl), closeGroup?_lineBreak groups hquote (.inr rfl),
        ih hquote]
      exact map_lineBreak_crlf _
    case neg =>
      have hnext : ∀ q ∈ if c = quote then none else some quote, Unbroken [q] := by
        split
        case isTrue =>
          intro q hq
          cases hq
        case isFalse => exact hquote
      rw [crlf_cons hfeed, closeGroup?_of_quoted hc, ih hnext]
      exact map_cons_crlf hfeed _
  | case5 t => simp [closeGroup?, crlf_cons]
  | case6 t groups ih =>
    rw [crlf_cons (by decide), closeGroup?, if_pos rfl, ih hquote]
    exact map_cons_crlf (by decide) _
  | case7 groups c t hc ih =>
    by_cases hfeed : c = '\n'
    case pos =>
      subst hfeed
      have hplain : ¬ ('\n' = '\'' ∨ '\n' = '"') ∧ '\n' ≠ '(' := by decide
      rw [if_neg hplain.1, if_neg hplain.2] at ih ⊢
      rw [crlf_lineFeed, closeGroup?_lineBreak groups hquote (.inl rfl), closeGroup?_lineBreak groups hquote (.inr rfl),
        ih hquote]
      exact map_lineBreak_crlf _
    case neg =>
      have hnext : ∀ q ∈ if c = '\'' ∨ c = '"' then some c else none, Unbroken [q] := by
        split
        case isTrue h =>
          rintro q ⟨⟩
          rcases h with rfl | rfl <;> decide
        case isFalse =>
          intro q hq
          cases hq
      rw [crlf_cons hfeed, closeGroup?_of_plain hc, ih hnext]
      exact map_cons_crlf hfeed _

theorem group?_cons_of_ne (hc : c ≠ '(') (t : Text) : group? (c :: t) = none := by
  unfold group?
  split
  case h_1 heq => exact absurd (List.cons.inj heq).1 hc
  case h_2 => rfl

theorem group?_crlf (t : Text) : group? (crlf t) = (group? t).map (Prod.map crlf crlf) := by
  cases t with
  | nil => rfl
  | cons c t =>
    by_cases hc : c = '('
    case pos =>
      subst hc
      rw [crlf_cons (by decide), group?, group?, closeGroup?_crlf 0 (by simp)]
      exact map_cons_crlf (by decide) _
    case neg =>
      rw [group?_cons_of_ne hc]
      by_cases hfeed : c = '\n'
      case pos => rw [hfeed, crlf_lineFeed, group?_cons_of_ne (by decide), Option.map_none]
      case neg => rw [crlf_cons hfeed, group?_cons_of_ne hc, Option.map_none]

end Text

end Template
