import Mathlib.Data.List.Forall2
import Template.Proofs.LineEnding
import Template.Proofs.Span

/-! # Spans and line endings

A text has the same spans whichever way its line breaks are written: a line break ends a comment in native
code and is taken after a closing mark in either way.
-/

namespace Template

open Text

variable {c : Char} {t : Text}

theorem splitLineBreak_of_head (hreturn : c ≠ '\r') (hfeed : c ≠ '\n') (t : Text) :
    splitLineBreak (c :: t) = ([], c :: t) := by
  unfold splitLineBreak
  split
  case h_1 heq => exact absurd (List.cons.inj heq).1 hreturn
  case h_2 heq => exact absurd (List.cons.inj heq).1 hfeed
  case h_3 => rfl

theorem splitLineBreak_crlf (h : '\r' ∉ t) : splitLineBreak (crlf t) = (splitLineBreak t).map crlf crlf := by
  cases t with
  | nil => rfl
  | cons c t =>
    rw [List.mem_cons, not_or] at h
    by_cases hc : c = '\n'
    case pos =>
      rw [hc]
      rfl
    case neg =>
      rw [crlf_cons hc, splitLineBreak_of_head (Ne.symm h.1) hc, splitLineBreak_of_head (Ne.symm h.1) hc]
      exact congrArg (Prod.mk []) (crlf_cons hc t).symm

namespace CodeMode

variable {mode next : CodeMode} {ahead : Option Char}

/-- No part of a line break counts as a quote. -/
def Plain : CodeMode → Prop
  | quoted quote => Unbroken [quote]
  | _ => True

/-- The mode after the end of a line. -/
def afterLine : CodeMode → CodeMode
  | lineComment => code
  | mode => mode

theorem step_carriageReturn (h : mode.Plain) (ahead : Option Char) : mode.step '\r' ahead = .one mode := by
  cases mode with
  | quoted quote =>
    have hne : '\r' ≠ quote := fun heq => h.carriageReturn (heq ▸ List.mem_cons_self)
    simp [step, hne]
  | _ => simp [step]

theorem step_lineFeed (h : mode.Plain) (ahead : Option Char) : mode.step '\n' ahead = .one mode.afterLine := by
  cases mode with
  | quoted quote =>
    have hne : '\n' ≠ quote := fun heq => h.lineFeed (heq ▸ List.mem_cons_self)
    simp [step, afterLine, hne]
  | _ => simp [step, afterLine]

/-- A line break ahead makes no difference, however it is written. -/
theorem step_head?_crlf (mode : CodeMode) (c : Char) (t : Text) :
    mode.step c (crlf t).head? = mode.step c t.head? := by
  rw [head?_crlf]
  split
  case isTrue h =>
    rw [h]
    cases mode <;> simp [step]
  case isFalse => rfl

theorem plain_of_step (h : mode.Plain) (hstep : mode.step c ahead = .one next ∨ mode.step c ahead = .two next) :
    next.Plain := by
  have hquotes : ∀ quote, next = quoted quote → quote = '\'' ∨ quote = '"' ∨ mode = quoted quote := by
    cases mode <;> grind [step]
  cases next with
  | quoted quote =>
    rcases hquotes quote rfl with rfl | rfl | rfl
    · exact ⟨by decide, by decide⟩
    · exact ⟨by decide, by decide⟩
    · exact h
  | _ => trivial

/-- A line feed is taken alone, unless a backslash stands before it in quotes. -/
theorem ne_lineFeed_of_step (h : mode.Plain)
    (hstep : mode.step c ahead = .close ∨ ∃ next, mode.step c ahead = .two next) : c ≠ '\n' := by
  rintro rfl
  rw [step_lineFeed h] at hstep
  rcases hstep with hstep | ⟨_, hstep⟩ <;> cases hstep

/-- Only in quotes a line break is taken together with the character before it. -/
theorem afterLine_of_step (hstep : mode.step c (some '\n') = .two next) : next.afterLine = next := by
  cases mode <;> grind [step, afterLine]

end CodeMode

theorem splitCode_crlf {mode : CodeMode} (hmode : mode.Plain) (h : '\r' ∉ t) :
    splitCode mode (crlf t) = (splitCode mode t).map crlf crlf := by
  fun_induction splitCode mode t with
  | case1 => rfl
  | case2 mode c t hstep lineBreak rest hbreak =>
    obtain ⟨u, rfl⟩ := List.head?_eq_some_iff.1 (CodeMode.next_eq_of_step_eq_close hstep)
    have hc := CodeMode.ne_lineFeed_of_step hmode (.inl hstep)
    have hreturn : '\r' ∉ u := fun hmem => h (List.mem_cons_of_mem _ (List.mem_cons_of_mem _ hmem))
    have hbreak' := splitLineBreak_crlf hreturn
    rw [List.drop_one, List.tail_cons] at hbreak
    rw [← CodeMode.step_head?_crlf] at hstep
    rw [crlf_cons hc, splitCode_of_close hstep, crlf_cons (by decide), List.drop_one, List.tail_cons, hbreak', hbreak]
    simp [crlf_cons hc, crlf_cons]
  | case3 mode c t next hstep code rest hcode ih =>
    rw [List.mem_cons, not_or] at h
    have hrest := ih (CodeMode.plain_of_step hmode (.inl hstep)) h.2
    rw [hcode] at hrest
    by_cases hc : c = '\n'
    case pos =>
      subst hc
      rw [CodeMode.step_lineFeed hmode] at hstep
      cases hstep
      rw [crlf_lineFeed, splitCode_of_one (CodeMode.step_carriageReturn hmode _),
        splitCode_of_one (CodeMode.step_lineFeed hmode _), hrest]
      rfl
    case neg =>
      rw [← CodeMode.step_head?_crlf] at hstep
      rw [crlf_cons hc, splitCode_of_one hstep, hrest]
      simp [crlf_cons hc]
  | case4 mode c next hstep =>
    have hc := CodeMode.ne_lineFeed_of_step hmode (.inr ⟨next, hstep⟩)
    rw [List.head?_nil] at hstep
    rw [crlf_cons hc, crlf_nil, splitCode.eq_def]
    simp [hstep, crlf_cons hc]
  | case5 mode c next d t code rest hcode hstep ih =>
    rw [List.mem_cons, not_or, List.mem_cons, not_or] at h
    have hc := CodeMode.ne_lineFeed_of_step hmode (.inr ⟨next, hstep⟩)
    have hnext := CodeMode.plain_of_step hmode (.inr hstep)
    have hrest := ih hnext h.2.2
    have hstep' := CodeMode.step_head?_crlf mode c (d :: t)
    rw [hstep] at hstep'
    rw [hcode] at hrest
    by_cases hd : d = '\n'
    case pos =>
      subst hd
      rw [crlf_lineFeed, List.head?_cons] at hstep'
      rw [crlf_cons hc, crlf_lineFeed, splitCode_of_two hstep', splitCode_of_one (CodeMode.step_lineFeed hnext _),
        CodeMode.afterLine_of_step hstep, hrest]
      simp [crlf_cons hc]
    case neg =>
      rw [crlf_cons hd, List.head?_cons] at hstep'
      rw [crlf_cons hc, crlf_cons hd, splitCode_of_two hstep', hrest]
      simp [crlf_cons hc, crlf_cons hd]

/-- Code that is not opened by an equals sign is opened by a word. -/
theorem opensCode_of_ne (hc : c ≠ '=') (t : Text) : opensCode ('<' :: '?' :: c :: t) =
    (c.toLower == 'p' && t.head?.any (·.toLower == 'h') && t.tail.head?.any (·.toLower == 'p') &&
      t.tail.tail.head?.all isBlank) := by
  unfold opensCode
  split
  case h_1 heq => cases heq; exact absurd rfl hc
  case h_2 heq => cases heq; rfl
  case h_3 hne hword =>
    rcases t with _ | ⟨b, _ | ⟨d, t⟩⟩
    · simp
    · simp
    · exact absurd rfl (hword _ _ _ _)

theorem opensCode_crlf (t : Text) : opensCode (crlf t) = opensCode t := by
  by_cases hmark : ∃ u, t = '<' :: '?' :: u
  case pos =>
    obtain ⟨u, rfl⟩ := hmark
    rw [crlf_cons (by decide), crlf_cons (by decide)]
    have hp : ('\r'.toLower == 'p') = false ∧ ('\n'.toLower == 'p') = false := by decide
    have hblank : isBlank '\r' = true ∧ isBlank '\n' = true := by decide
    rcases u with _ | ⟨a, u⟩
    · rfl
    by_cases heq : a = '='
    · subst heq
      rfl
    by_cases ha : a = '\n'
    · subst ha
      rw [crlf_lineFeed, opensCode_of_ne (by decide), opensCode_of_ne heq, hp.1, hp.2, Bool.false_and, Bool.false_and,
        Bool.false_and, Bool.false_and, Bool.false_and, Bool.false_and]
    rw [crlf_cons ha, opensCode_of_ne heq, opensCode_of_ne heq]
    rcases u with _ | ⟨b, u⟩
    · rfl
    by_cases hb : b = '\n'
    · subst hb
      simp
    rw [crlf_cons hb]
    rcases u with _ | ⟨d, u⟩
    · rfl
    by_cases hd : d = '\n'
    · subst hd
      simp
    rw [crlf_cons hd]
    simp only [List.head?_cons, List.tail_cons, head?_crlf]
    split
    case isTrue h => simp [h, hblank]
    case isFalse => rfl
  case neg =>
    have hnone : opensCode t = false := Bool.eq_false_iff.2 fun hopens => hmark (exists_of_opensCode hopens)
    rw [hnone, Bool.eq_false_iff]
    intro hopens
    obtain ⟨v, hv⟩ := exists_of_opensCode hopens
    have hstrip : stripPrefix? ['<', '?'] (crlf t) = some v := by
      rw [hv]
      exact stripPrefix?_append ['<', '?'] v
    rw [stripPrefix?_crlf (by decide)] at hstrip
    obtain ⟨u, hu, -⟩ := Option.map_eq_some_iff.1 hstrip
    exact hmark ⟨u, stripPrefix?_eq_some hu⟩

theorem nextCode?_of_not_opensCode (h : opensCode (c :: t) = false) :
    nextCode? (c :: t) = (nextCode? t).map fun (before, code, rest) => (c :: before, code, rest) := by
  rw [nextCode?, h, if_neg Bool.false_ne_true]

theorem nextCode?_crlf (h : '\r' ∉ t) :
    nextCode? (crlf t) = (nextCode? t).map fun (before, code, rest) => (crlf before, crlf code, crlf rest) := by
  induction t with
  | nil => rfl
  | cons c t ih =>
    rw [List.mem_cons, not_or] at h
    cases hopens : opensCode (c :: t) with
    | true =>
      obtain ⟨u, hu⟩ := exists_of_opensCode hopens
      rw [hu] at hopens ⊢
      have hopens' := opensCode_crlf ('<' :: '?' :: u)
      rw [hopens, crlf_cons (by decide), crlf_cons (by decide)] at hopens'
      have hreturn : '\r' ∉ u := fun hmem => h.2 ((List.cons.inj hu).2 ▸ List.mem_cons_of_mem _ hmem)
      have hcode : splitCode .code (crlf u) = (splitCode .code u).map crlf crlf := splitCode_crlf trivial hreturn
      rw [crlf_cons (by decide), crlf_cons (by decide), nextCode?_of_opensCode hopens rfl, nextCode?_of_opensCode hopens' rfl,
        hcode]
      simp [crlf_cons]
    | false =>
      rw [nextCode?_of_not_opensCode hopens]
      by_cases hc : c = '\n'
      case pos =>
        subst hc
        rw [crlf_lineFeed, nextCode?_of_not_opensCode rfl, nextCode?_of_not_opensCode rfl, ih h.2]
        cases nextCode? t <;> rfl
      case neg =>
        have hopens' := opensCode_crlf (c :: t)
        rw [hopens, crlf_cons hc] at hopens'
        rw [crlf_cons hc, nextCode?_of_not_opensCode hopens', ih h.2]
        cases nextCode? t with
        | none => rfl
        | some found => simp [crlf_cons hc]

namespace Span

/-- The same span, wherever the two stand, with its line breaks written in the other way. -/
structure Crlf (span other : Span) : Prop where
  kind : other.kind = span.kind
  text : other.text = crlf span.text
  carriageReturn : '\r' ∉ span.text

theorem crlf_markup (h : '\r' ∉ t) (offset offset' : Nat) :
    List.Forall₂ Crlf (markup t offset) (markup (crlf t) offset') := by
  unfold markup
  simp only [crlf_eq_nil_iff]
  split
  case isTrue => exact .nil
  case isFalse => exact .cons ⟨rfl, rfl, h⟩ .nil

theorem ofTextAt_crlf (h : '\r' ∉ t) (offset offset' : Nat) :
    List.Forall₂ Crlf (ofTextAt offset t) (ofTextAt offset' (crlf t)) := by
  fun_induction ofTextAt offset t generalizing offset' with
  | case1 offset t hnext =>
    have hnext' := nextCode?_crlf h
    rw [hnext] at hnext'
    rw [ofTextAt_of_none hnext']
    exact crlf_markup h _ _
  | case2 offset t before code rest hnext start ih =>
    have hnext' := nextCode?_crlf h
    rw [hnext] at hnext'
    rw [nextCode?_append hnext, List.mem_append, List.mem_append, not_or, not_or] at h
    rw [ofTextAt_of_some hnext']
    exact List.rel_append (crlf_markup h.1.1 _ _) (.cons ⟨rfl, rfl, h.1.2⟩ (ih h.2 _))

end Span

end Template
