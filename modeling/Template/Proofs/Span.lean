import Template.Proofs.Text
import Template.Span

/-! # Native code in a text

The spans of a text stand in it where their offsets say. Code that comes to its closing mark
is recognized whatever follows it; what follows can lend it a line break and nothing more.
-/

namespace Template

theorem splitLineBreak_fst_cases (t : Text) :
    (splitLineBreak t).1 = [] ∨ (splitLineBreak t).1 = ['\n'] ∨
      (splitLineBreak t).1 = ['\r', '\n'] := by
  unfold splitLineBreak
  split <;> simp

/-- A beginning of a text that starts with no line break starts with none. -/
theorem splitLineBreak_fst_of_append {t more : Text} (h : (splitLineBreak (t ++ more)).1 = []) :
    (splitLineBreak t).1 = [] := by
  unfold splitLineBreak at h ⊢
  split
  · cases h
  · cases h
  · rfl

namespace Span

/-- A span stands in the text at its offset. -/
theorem mem_ofTextAt {offset : Nat} {t : Text} {span : Span} (h : span ∈ ofTextAt offset t) :
    ∃ front back, t = front ++ span.text ++ back ∧
      span.offset = offset + Text.byteLength front := by
  have mem_markup : ∀ {text : Text} {start : Nat}, span ∈ markup text start →
      span.text = text ∧ span.offset = start := by
    intro text start hmem
    unfold markup at hmem
    split at hmem
    · cases hmem
    · rw [List.mem_singleton] at hmem
      exact hmem ▸ ⟨rfl, rfl⟩
  fun_induction ofTextAt offset t with
  | case1 offset t hnext =>
    obtain ⟨htext, hoffset⟩ := mem_markup h
    exact ⟨[], [], by simp [htext], by simp [hoffset]⟩
  | case2 offset t before code rest hnext start ih =>
    rw [nextCode?_append hnext]
    rcases List.mem_append.1 h with h | h
    · obtain ⟨htext, hoffset⟩ := mem_markup h
      exact ⟨[], code ++ rest, by simp [htext], by simp [hoffset]⟩
    · rcases List.mem_cons.1 h with rfl | h
      · exact ⟨before, rest, rfl, rfl⟩
      · obtain ⟨front, back, rfl, hoffset⟩ := ih h
        refine ⟨before ++ code ++ front, back, by simp only [List.append_assoc], ?_⟩
        rw [hoffset, Text.byteLength_append, Text.byteLength_append]
        omega

theorem mem_ofText {t : Text} {span : Span} (h : span ∈ ofText t) :
    ∃ front back, t = front ++ span.text ++ back ∧ span.offset = Text.byteLength front := by
  obtain ⟨front, back, ht, hoffset⟩ := mem_ofTextAt h
  exact ⟨front, back, ht, by rw [hoffset, Nat.zero_add]⟩

end Span

/-- Whether native code read from the given mode comes to a closing mark. -/
def closesCode (mode : CodeMode) : Text → Bool
  | [] => false
  | c :: t =>
    match mode.step c t.head? with
    | .close => true
    | .one next => closesCode next t
    | .two next =>
      match t with
      | [] => false
      | _ :: t => closesCode next t

/-- A closing mark is two characters. -/
theorem CodeMode.next_eq_of_step_eq_close {mode : CodeMode} {c : Char} {next : Option Char}
    (h : mode.step c next = .close) : next = some '>' := by
  cases mode <;> grind [CodeMode.step]

theorem ne_nil_of_closesCode {mode : CodeMode} {t : Text} (h : closesCode mode t = true) :
    t ≠ [] := by
  rintro rfl
  cases h

section

variable {mode next : CodeMode} {c d : Char} {t : Text}

theorem splitCode_of_close (h : mode.step c t.head? = .close) :
    splitCode mode (c :: t) =
      (c :: t.take 1 ++ (splitLineBreak (t.drop 1)).1, (splitLineBreak (t.drop 1)).2) := by
  rw [splitCode.eq_def]
  simp only [h]

theorem splitCode_of_one (h : mode.step c t.head? = .one next) :
    splitCode mode (c :: t) = (c :: (splitCode next t).1, (splitCode next t).2) := by
  rw [splitCode.eq_def]
  simp only [h]

theorem splitCode_of_two (h : mode.step c (some d) = .two next) :
    splitCode mode (c :: d :: t) = (c :: d :: (splitCode next t).1, (splitCode next t).2) := by
  rw [splitCode.eq_def]
  simp only [List.head?_cons, h]

end

/-- A line break that is the whole of a text is all that is taken, and nothing takes at most
    the line break that follows. -/
theorem splitLineBreak_append_of_all {t : Text} (rest : Text) (hall : splitLineBreak t = (t, [])) :
    ∃ lineBreak after, splitLineBreak (t ++ rest) = (t ++ lineBreak, after) ∧
      ((lineBreak, after) = ([], rest) ∨ (lineBreak, after) = splitLineBreak rest) := by
  have hfst := congrArg Prod.fst hall
  rcases splitLineBreak_fst_cases t with h | h | h <;> rw [hfst] at h <;> subst h
  · exact ⟨_, _, rfl, .inr rfl⟩
  · exact ⟨[], rest, rfl, .inl rfl⟩
  · exact ⟨[], rest, rfl, .inl rfl⟩

/-- Code that has come to its end takes at most a line break from what follows. -/
theorem splitCode_append_of_closes {mode : CodeMode} {t : Text} (rest : Text)
    (hcloses : closesCode mode t = true) (hall : splitCode mode t = (t, [])) :
    ∃ lineBreak after, splitCode mode (t ++ rest) = (t ++ lineBreak, after) ∧
      ((lineBreak, after) = ([], rest) ∨ (lineBreak, after) = splitLineBreak rest) := by
  fun_induction closesCode mode t with
  | case1 => cases hcloses
  | case2 mode c t hstep =>
    obtain ⟨u, rfl⟩ := List.head?_eq_some_iff.1 (CodeMode.next_eq_of_step_eq_close hstep)
    rw [splitCode_of_close hstep] at hall
    simp only [List.take_succ_cons, List.take_zero, List.drop_succ_cons, List.drop_zero,
      List.cons_append, List.nil_append, Prod.mk.injEq, List.cons.injEq, true_and] at hall
    obtain ⟨lineBreak, after, hsplit, hcases⟩ :=
      splitLineBreak_append_of_all rest (Prod.ext hall.1 hall.2)
    refine ⟨lineBreak, after, ?_, hcases⟩
    rw [List.cons_append, List.cons_append, splitCode_of_close (t := '>' :: (u ++ rest)) hstep]
    simp only [List.take_succ_cons, List.take_zero, List.drop_succ_cons, List.drop_zero, hsplit,
      List.cons_append, List.nil_append]
  | case3 mode c t next hstep ih =>
    rw [splitCode_of_one hstep] at hall
    simp only [Prod.mk.injEq, List.cons.injEq, true_and] at hall
    obtain ⟨lineBreak, after, hsplit, hcases⟩ := ih hcloses (Prod.ext hall.1 hall.2)
    refine ⟨lineBreak, after, ?_, hcases⟩
    have hstep' : mode.step c (t ++ rest).head? = .one next := by
      obtain ⟨d, u, rfl⟩ := List.exists_cons_of_ne_nil (ne_nil_of_closesCode hcloses)
      exact hstep
    rw [List.cons_append, splitCode_of_one hstep', hsplit]
    rfl
  | case4 => cases hcloses
  | case5 mode c next d t hstep ih =>
    rw [splitCode_of_two hstep] at hall
    simp only [Prod.mk.injEq, List.cons.injEq, true_and] at hall
    obtain ⟨lineBreak, after, hsplit, hcases⟩ := ih hcloses (Prod.ext hall.1 hall.2)
    refine ⟨lineBreak, after, ?_, hcases⟩
    rw [List.cons_append, List.cons_append, splitCode_of_two hstep, hsplit]
    rfl

theorem nextCode?_append_of_avoids {s t : Text} (h : Text.Avoids (opensCode · = true) s t) :
    nextCode? (s ++ t) =
      (nextCode? t).map fun (before, code, rest) => (s ++ before, code, rest) := by
  induction s with
  | nil =>
    rw [List.nil_append]
    cases nextCode? t <;> rfl
  | cons c s ih =>
    rw [List.cons_append, nextCode?.eq_def]
    simp only [h.1, if_false, ih h.2, Option.map_map]
    rfl

theorem exists_of_opensCode {t : Text} (h : opensCode t = true) : ∃ u, t = '<' :: '?' :: u := by
  unfold opensCode at h
  split at h
  · exact ⟨_, rfl⟩
  · exact ⟨_, rfl⟩
  · cases h

/-- A letter of the code opener neither ends code nor changes how it is read. -/
theorem step_code_of_toLower {c : Char} {next : Option Char}
    (h : c.toLower = 'p' ∨ c.toLower = 'h') : CodeMode.code.step c next = .one .code := by
  have hne : c ≠ '?' ∧ c ≠ '\'' ∧ c ≠ '"' ∧ c ≠ '#' ∧ c ≠ '/' := by
    refine ⟨?_, ?_, ?_, ?_, ?_⟩ <;> rintro rfl <;> revert h <;> decide
  simp only [CodeMode.step, hne, false_and, or_self, if_false]

theorem nextCode?_eq_none_of_not_infix {t : Text} (h : ¬ ['<', '?'] <:+: t) : nextCode? t = none := by
  have havoids : Text.Avoids (opensCode · = true) t [] := by
    refine (Text.avoids_of_not_infix_nil h).mono fun u hu => ?_
    obtain ⟨v, rfl⟩ := exists_of_opensCode hu
    exact ⟨v, rfl⟩
  have hnext := nextCode?_append_of_avoids havoids
  rwa [List.append_nil] at hnext

/-- Text after code that comes to its end makes no difference to how the code starts. -/
theorem opensCode_append {t : Text} (rest : Text) (h : opensCode t = true)
    (hcloses : closesCode .code (t.drop 2) = true) : opensCode (t ++ rest) = true := by
  unfold opensCode at h
  split at h
  · rfl
  case _ p q r u hp =>
    simp only [Bool.and_eq_true, beq_iff_eq] at h
    obtain ⟨⟨⟨h1, h2⟩, h3⟩, hblank⟩ := h
    cases u with
    | nil =>
      simp only [List.drop_succ_cons, List.drop_zero, closesCode, step_code_of_toLower (.inl h1),
        step_code_of_toLower (.inr h2), step_code_of_toLower (.inl h3), Bool.false_eq_true] at hcloses
    | cons d u =>
      rw [List.head?_cons] at hblank
      simp only [List.cons_append, opensCode, h1, h2, h3, beq_self_eq_true, Bool.and_self,
        List.head?_cons, hblank]
  · cases h

theorem nextCode?_of_opensCode {u code rest : Text} (hopens : opensCode ('<' :: '?' :: u) = true)
    (hcode : splitCode .code u = (code, rest)) :
    nextCode? ('<' :: '?' :: u) = some ([], '<' :: '?' :: code, rest) := by
  rw [nextCode?.eq_def]
  simp only [hopens, if_true, List.drop_succ_cons, List.drop_zero, hcode, List.take_succ_cons,
    List.take_zero, List.cons_append, List.nil_append]

/-- Native code at the head of a text opens there. -/
theorem opensCode_of_nextCode? {t code rest : Text} (h : nextCode? t = some ([], code, rest)) :
    opensCode t = true := by
  unfold nextCode? at h
  split at h
  · cases h
  · split at h
    · assumption
    · simp only [Option.map_eq_some_iff, Prod.exists, Prod.mk.injEq] at h
      obtain ⟨_, _, _, _, hbefore, _⟩ := h
      cases hbefore

namespace Span

theorem ofTextAt_of_none {offset : Nat} {t : Text} (h : nextCode? t = none) :
    ofTextAt offset t = markup t offset := by
  rw [ofTextAt]
  split
  · rfl
  · simp_all

theorem ofTextAt_of_some {offset : Nat} {t before code rest : Text}
    (h : nextCode? t = some (before, code, rest)) :
    ofTextAt offset t = markup before offset ++
      ⟨.native, code, offset + Text.byteLength before⟩ ::
        ofTextAt (offset + Text.byteLength before + Text.byteLength code) rest := by
  rw [ofTextAt]
  split
  · simp_all
  case _ b c r h' =>
    rw [h] at h'
    cases h'
    rfl

end Span

/-- The text is one span of native code, and its own closing mark ends it. -/
def IsNativeCode (code : Text) : Prop :=
  Span.ofText code = [⟨.native, code, 0⟩] ∧ closesCode .code (code.drop 2) = true

namespace IsNativeCode

variable {code : Text}

theorem nextCode?_eq (h : IsNativeCode code) : nextCode? code = some ([], code, []) := by
  obtain ⟨hspans, -⟩ := h
  unfold Span.ofText at hspans
  cases hnext : nextCode? code with
  | none =>
    rw [Span.ofTextAt_of_none hnext, Span.markup] at hspans
    split at hspans <;> simp at hspans
  | some found =>
    obtain ⟨before, code', rest⟩ := found
    rw [Span.ofTextAt_of_some hnext, Span.markup] at hspans
    split at hspans
    case isTrue hbefore =>
      simp only [List.nil_append, List.cons.injEq, Span.mk.injEq, true_and] at hspans
      have hcode := nextCode?_append hnext
      rw [hbefore, List.nil_append, hspans.1.1] at hcode
      rw [hbefore, hspans.1.1, List.self_eq_append_right.1 hcode]
    · simp at hspans

theorem exists_eq (h : IsNativeCode code) : ∃ u, code = '<' :: '?' :: u :=
  exists_of_opensCode (opensCode_of_nextCode? h.nextCode?_eq)

/-- Native code is recognized whatever follows it, and takes at most a line break of that. -/
theorem nextCode?_append_eq (h : IsNativeCode code) (rest : Text) :
    ∃ lineBreak after, nextCode? (code ++ rest) = some ([], code ++ lineBreak, after) ∧
      ((lineBreak, after) = ([], rest) ∨ (lineBreak, after) = splitLineBreak rest) := by
  have hopens := opensCode_of_nextCode? h.nextCode?_eq
  obtain ⟨u, rfl⟩ := exists_of_opensCode hopens
  have hall : splitCode .code u = (u, []) := by
    have hnext := h.nextCode?_eq
    rw [nextCode?_of_opensCode hopens rfl] at hnext
    simp only [Option.some.injEq, Prod.mk.injEq, List.cons.injEq, true_and] at hnext
    exact Prod.ext hnext.1 hnext.2
  obtain ⟨lineBreak, after, hsplit, hcases⟩ := splitCode_append_of_closes rest h.2 hall
  exact ⟨lineBreak, after, nextCode?_of_opensCode (opensCode_append rest hopens h.2) hsplit, hcases⟩

end IsNativeCode

end Template
