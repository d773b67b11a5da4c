import Template.Proofs.CodePart

/-! # Native spans

A template is cut at exactly its native code: a native span starts at every code opener that does
not lie inside an earlier one, and reaches as far as the code does. All the rest is markup.
-/

namespace Template

/-- Native code may start here: with `<?=`, or with `<?php` in any letter case before a blank or the
    end. -/
def OpensNative (t : Text) : Prop :=
  ['<', '?', '='] <+: t ∨ ∃ name rest, t = '<' :: '?' :: (name ++ rest) ∧
    name.map Char.toLower = ['p', 'h', 'p'] ∧ ∀ c ∈ rest.head?, isBlank c = true

/-- Native code may start at a byte position. -/
def OpensNativeAt (source : Text) (position : Nat) : Prop :=
  ∃ front t, source = front ++ t ∧ Text.byteLength front = position ∧ OpensNative t

theorem opensCode_iff {t : Text} : opensCode t = true ↔ OpensNative t := by
  constructor
  · intro h
    unfold opensCode at h
    split at h
    case _ u => exact .inl ⟨u, rfl⟩
    case _ p q r u _ =>
      simp only [Bool.and_eq_true, beq_iff_eq] at h
      obtain ⟨⟨⟨hp, hh⟩, hq⟩, hblank⟩ := h
      refine .inr ⟨[p, q, r], u, rfl, by simp only [List.map_cons, List.map_nil, hp, hh, hq], ?_⟩
      intro c hc
      rw [Option.mem_def.1 hc] at hblank
      exact hblank
    case _ => cases h
  · rintro (⟨u, rfl⟩ | ⟨name, rest, rfl, hname, hblank⟩)
    · rfl
    · obtain ⟨p, name, rfl, hp, hname⟩ := List.map_eq_cons_iff.1 hname
      obtain ⟨h, name, rfl, hh, hname⟩ := List.map_eq_cons_iff.1 hname
      obtain ⟨q, name, rfl, hq, hname⟩ := List.map_eq_cons_iff.1 hname
      obtain rfl := List.map_eq_nil_iff.1 hname
      have hne : p ≠ '=' := by
        rintro rfl
        revert hp
        decide
      have hall : rest.head?.all isBlank = true := by
        cases hhead : rest.head? with
        | none => rfl
        | some c => exact hblank c hhead
      simp [opensCode, hp, hh, hq, hall]

/-- From one mode the reader takes all of `s` before `t`, and goes on in the next mode. -/
def Takes (mode : CodeMode) (s : Text) (next : CodeMode) (t : Text) : Prop :=
  splitCode mode (s ++ t) = (s ++ (splitCode next t).1, (splitCode next t).2)

namespace Takes

variable {mode middle next : CodeMode} {c d quote : Char} {s s' t body last rest : Text} {part : CodePart}
  {parts : List CodePart}

theorem nil : Takes mode [] mode t := rfl

theorem append (h : Takes mode s middle (s' ++ t)) (h' : Takes middle s' next t) :
    Takes mode (s ++ s') next t := by
  unfold Takes at h h' ⊢
  rw [List.append_assoc, h, h', List.append_assoc]

theorem one (h : mode.step c t.head? = .one next) : Takes mode [c] next t := splitCode_of_one h

theorem two (h : mode.step c (some d) = .two next) : Takes mode [c, d] next t := splitCode_of_two h

theorem quotedBody (h : QuotedBody quote body) :
    Takes (.quoted quote) body (.quoted quote) t := by
  induction h with
  | nil => exact nil
  | plain hne hslash _ ih => exact append (s := [_]) (one (by simp [CodeMode.step, hne, hslash])) ih
  | escaped _ ih => exact append (s := [_, _]) (two (by simp [CodeMode.step])) ih

theorem quotedLast (hquote : quote ≠ '\\')
    (h : last = [quote] ∨ rest = [] ∧ (last = [] ∨ last = ['\\'])) :
    Takes (.quoted quote) last .code rest := by
  rcases h with rfl | ⟨rfl, rfl | rfl⟩
  · exact one (by simp [CodeMode.step, hquote])
  · rfl
  · rfl

theorem lineCommentBody (hline : '\n' ∉ body) (hcloses : Text.Avoids (closingMark <+: ·) body rest) :
    Takes .lineComment body .lineComment rest := by
  induction body with
  | nil => exact nil
  | cons c body ih =>
    rw [List.mem_cons, not_or] at hline
    obtain ⟨hne, hline⟩ := hline
    refine append (s := [c]) (one ?_) (ih hline hcloses.2)
    have hclose := hcloses.1
    cases hu : body ++ rest with
    | nil => simp [CodeMode.step, Ne.symm hne]
    | cons d u =>
      rw [hu] at hclose
      simp only [closingMark, List.cons_prefix_cons, List.nil_prefix, and_true] at hclose
      grind [CodeMode.step]

theorem lineCommentEnd (h : rest = [] ∨ ['\n'] <+: rest ∨ closingMark <+: rest) :
    Takes .lineComment [] .code rest := by
  rcases h with rfl | ⟨u, rfl⟩ | ⟨u, rfl⟩
  · rfl
  · have hcomment : Takes .lineComment ['\n'] .code u := one (by simp [CodeMode.step])
    have hcode : Takes .code ['\n'] .code u := one (by simp [CodeMode.step])
    exact hcomment.trans hcode.symm
  · exact (splitCode_of_close (by rfl)).trans (splitCode_of_close (by rfl)).symm

theorem blockCommentBody (h : Text.Avoids (blockEnd <+: ·) body rest) :
    Takes .blockComment body .blockComment rest := by
  induction body with
  | nil => exact nil
  | cons c body ih =>
    refine append (s := [c]) (one ?_) (ih h.2)
    have hend := h.1
    cases hu : body ++ rest with
    | nil => simp [CodeMode.step]
    | cons d u =>
      rw [hu] at hend
      simp only [blockEnd, List.cons_prefix_cons, List.nil_prefix, and_true] at hend
      grind [CodeMode.step]

theorem blockCommentLast (h : last = blockEnd ∨ rest = [] ∧ last = []) :
    Takes .blockComment last .code rest := by
  rcases h with rfl | ⟨rfl, rfl⟩
  · exact two (by simp [CodeMode.step])
  · rfl

/-- Code is read part by part. -/
theorem whole (h : part.Whole rest) : Takes .code part.text .code rest := by
  cases h with
  | @plain c rest hmarks =>
    refine one ?_
    simp only [CodePart.marks, closingMark, List.forall_mem_cons, List.cons_prefix_cons] at hmarks
    cases rest <;> grind [CodeMode.step]
  | @quoted quote body last rest hquote hbody hlast =>
    have hslash : quote ≠ '\\' := by rcases hquote with rfl | rfl <;> decide
    have hopen : CodeMode.code.step quote (body ++ last ++ rest).head? = .one (.quoted quote) := by
      rcases hquote with rfl | rfl <;> simp [CodeMode.step]
    exact append (s := [quote]) (one hopen)
      (append (quotedBody hbody) (quotedLast hslash hlast))
  | @lineComment opener body rest hopener hline hcloses hrest =>
    have hbody : Takes _ (body ++ []) _ rest := append (lineCommentBody hline hcloses) (lineCommentEnd hrest)
    rw [List.append_nil] at hbody
    refine append ?_ hbody
    rcases hopener with rfl | rfl
    · exact one (by simp [CodeMode.step])
    · exact two (by simp [CodeMode.step])
  | @blockComment body last rest hbody hlast =>
    exact append (s := ['/', '*']) (two (by simp [CodeMode.step]))
      (append (blockCommentBody hbody) (blockCommentLast hlast))

theorem reads (h : ReadsAs t parts rest) : Takes .code (parts.flatMap CodePart.text) .code rest := by
  induction h with
  | done => exact nil
  | part hwhole hreads ih => exact append (hreads.append_eq ▸ whole hwhole) ih

end Takes

theorem isLineBreakOf_splitLineBreak (t : Text) : IsLineBreakOf (splitLineBreak t).1 t := by
  unfold splitLineBreak
  split
  case _ u => exact .inl ⟨rfl, u, rfl⟩
  case _ u => exact .inr (.inl ⟨rfl, u, rfl⟩)
  case _ hcrlf hfeed =>
    refine .inr (.inr ⟨rfl, ?_, ?_⟩)
    · rintro ⟨u, rfl⟩
      exact hcrlf u rfl
    · rintro ⟨u, rfl⟩
      exact hfeed u rfl

theorem codeReaches_splitCode (t : Text) : CodeReaches t (splitCode .code t).1 := by
  obtain ⟨parts, rest, hreads, hrest⟩ := ReadsAs.exists_parts t
  have htakes : Takes .code (parts.flatMap CodePart.text) .code rest := .reads hreads
  unfold Takes at htakes
  rw [← hreads.append_eq] at htakes
  rcases hrest with rfl | ⟨back, rfl⟩
  · have hall : (splitCode .code t).1 = t := by
      rw [htakes]
      exact hreads.append_eq.symm
    rw [hall]
    exact .unclosed hreads.not_closesAfter
  · have hclose : splitCode .code (closingMark ++ back) =
        (closingMark ++ (splitLineBreak back).1, (splitLineBreak back).2) := splitCode_of_close rfl
    obtain ⟨hcloses, hfirst⟩ := hreads.closesAfter
    rw [htakes, hclose, ← List.append_assoc]
    exact .closed hcloses hfirst (isLineBreakOf_splitLineBreak back)

theorem avoids_of_nextCode?_eq_none {t : Text} (h : nextCode? t = none) :
    Text.Avoids (opensCode · = true) t [] := by
  induction t with
  | nil => trivial
  | cons c t ih =>
    unfold nextCode? at h
    split at h
    · cases h
    case _ hopens =>
      refine ⟨?_, ih (Option.map_eq_none_iff.1 h)⟩
      rwa [List.append_nil]

/-- Native code that is found starts at the first opener, and takes what the reader takes. -/
theorem exists_of_nextCode? {t before code rest : Text} (h : nextCode? t = some (before, code, rest)) :
    Text.Avoids (opensCode · = true) before (code ++ rest) ∧ opensCode (code ++ rest) = true ∧
      ∃ u, code ++ rest = '<' :: '?' :: u ∧ code = '<' :: '?' :: (splitCode .code u).1 := by
  induction t generalizing before with
  | nil => cases h
  | cons c t ih =>
    have ht := nextCode?_append h
    unfold nextCode? at h
    split at h
    case _ hopens =>
      cases h
      obtain ⟨u, hu⟩ := exists_of_opensCode hopens
      rw [List.nil_append] at ht
      rw [← ht]
      obtain ⟨rfl, rfl⟩ := List.cons.inj hu
      exact ⟨trivial, hopens, u, rfl, rfl⟩
    case _ hopens =>
      simp only [Option.map_eq_some_iff, Prod.exists, Prod.mk.injEq] at h
      obtain ⟨b, n, r, hnext, rfl, rfl, rfl⟩ := h
      obtain ⟨havoids, hhead⟩ := ih hnext
      rw [List.append_assoc, List.cons_append] at ht
      exact ⟨⟨ht ▸ hopens, havoids⟩, hhead⟩

namespace Span

variable {offset : Nat} {t : Text} {span : Span}

theorem flatMap_text_markup (t : Text) (offset : Nat) : (markup t offset).flatMap Span.text = t := by
  unfold markup
  split <;> simp_all

/-- The spans stand one right after another, the first at the given byte position. -/
def Tiles : Nat → List Span → Prop
  | _, [] => True
  | offset, span :: spans => span.offset = offset ∧ Tiles (offset + Text.byteLength span.text) spans

theorem kind_of_mem_markup (h : span ∈ markup t offset) : span.kind = .markup := by
  unfold markup at h
  split at h
  · cases h
  · rw [List.mem_singleton] at h
    rw [h]

theorem flatMap_text_ofTextAt (offset : Nat) (t : Text) : (ofTextAt offset t).flatMap Span.text = t := by
  fun_induction ofTextAt offset t with
  | case1 offset t => exact flatMap_text_markup t offset
  | case2 offset t before code rest hnext start ih =>
    rw [List.flatMap_append, List.flatMap_cons, ih, flatMap_text_markup, nextCode?_append hnext,
      List.append_assoc]

theorem tiles_markup_append {spans : List Span} (h : Tiles (offset + Text.byteLength t) spans) :
    Tiles offset (markup t offset ++ spans) := by
  unfold markup
  split
  case isTrue ht =>
    rw [ht, Text.byteLength_nil, Nat.add_zero] at h
    exact h
  case isFalse => exact ⟨rfl, h⟩

theorem tiles_ofTextAt (offset : Nat) (t : Text) : Tiles offset (ofTextAt offset t) := by
  fun_induction ofTextAt offset t with
  | case1 offset t =>
    rw [← List.append_nil (markup t offset)]
    exact tiles_markup_append trivial
  | case2 offset t before code rest _ _ ih => exact tiles_markup_append ⟨rfl, ih⟩

theorem le_of_opensNativeAt {before rest : Text} {position : Nat}
    (havoids : Text.Avoids (opensCode · = true) before rest)
    (h : OpensNativeAt (before ++ rest) position) : Text.byteLength before ≤ position := by
  obtain ⟨front, u, hu, rfl, hopens⟩ := h
  refine Nat.le_of_not_lt fun hlt => ?_
  obtain ⟨more, hmore, hrest⟩ := Text.exists_append_of_byteLength_le hu.symm (Nat.le_of_lt hlt)
  refine Text.avoids_iff.1 havoids front more hmore ?_ (hrest ▸ opensCode_iff.2 hopens)
  rintro rfl
  rw [hmore, List.append_nil] at hlt
  exact Nat.lt_irrefl _ hlt

theorem opensNativeAt_append {front rest : Text} {position : Nat} :
    OpensNativeAt (front ++ rest) (Text.byteLength front + position) ↔ OpensNativeAt rest position := by
  constructor
  · rintro ⟨front', u, hu, hlength, hopens⟩
    obtain ⟨more, rfl, rfl⟩ := Text.exists_append_of_byteLength_le hu (by omega)
    rw [Text.byteLength_append] at hlength
    exact ⟨more, u, rfl, by omega, hopens⟩
  · rintro ⟨more, u, rfl, rfl, hopens⟩
    exact ⟨front ++ more, u, (List.append_assoc _ _ _).symm, Text.byteLength_append _ _, hopens⟩

theorem opensNative_ne_nil (h : OpensNative t) : t ≠ [] := by
  rcases h with ⟨u, rfl⟩ | ⟨name, rest, rfl, -⟩ <;> exact List.cons_ne_nil _ _

/-- Native spans start at the code openers that no earlier native span reaches over. -/
theorem native_iff (position : Nat) :
    (∃ span ∈ ofTextAt offset t, span.kind = .native ∧ span.offset = offset + position) ↔
      OpensNativeAt t position ∧ ∀ span ∈ ofTextAt offset t, span.kind = .native →
        span.offset < offset + position →
          span.offset + Text.byteLength span.text ≤ offset + position := by
  fun_induction ofTextAt offset t generalizing position with
  | case1 offset t hnext =>
    have havoids := avoids_of_nextCode?_eq_none hnext
    constructor
    · rintro ⟨span, hspan, hnative, -⟩
      rw [kind_of_mem_markup hspan] at hnative
      cases hnative
    · rintro ⟨⟨front, u, rfl, rfl, hopens⟩, -⟩
      refine absurd ?_ (Text.avoids_iff.1 havoids front u rfl (opensNative_ne_nil hopens))
      rw [List.append_nil]
      exact opensCode_iff.2 hopens
  | case2 offset t before code rest hnext start ih =>
    obtain ⟨havoids, hopens, -⟩ := exists_of_nextCode? hnext
    have ht := nextCode?_append hnext
    have hpos := Text.byteLength_pos (nextCode?_ne_nil hnext)
    have hlater : ∀ span ∈ ofTextAt (start + Text.byteLength code) rest,
        start + Text.byteLength code ≤ span.offset := by
      intro span hspan
      obtain ⟨front, back, -, hoffset⟩ := mem_ofTextAt hspan
      omega
    have hnative : ∀ span : Span, span.kind = .native →
        (span ∈ markup before offset ++ ⟨.native, code, start⟩ :: ofTextAt (start + Text.byteLength code) rest ↔
          span = ⟨.native, code, start⟩ ∨ span ∈ ofTextAt (start + Text.byteLength code) rest) := by
      intro span hkind
      rw [List.mem_append, List.mem_cons, or_iff_right]
      intro hmarkup
      rw [kind_of_mem_markup hmarkup] at hkind
      cases hkind
    have hstart : start = offset + Text.byteLength before := rfl
    by_cases hin : position < Text.byteLength before + Text.byteLength code
    case pos =>
      -- Before the end of the first code, its own start is the only place.
      rw [ht, List.append_assoc]
      constructor
      · rintro ⟨span, hmem, hkind, hoffset⟩
        rcases (hnative span hkind).1 hmem with rfl | hmem
        · refine ⟨⟨before, code ++ rest, rfl, by simp only at hoffset; omega, opensCode_iff.1 hopens⟩, ?_⟩
          intro other hother hkind' hlt
          rcases (hnative other hkind').1 hother with rfl | hother
          · simp only at hlt hoffset
            omega
          · have := hlater other hother
            simp only at hoffset
            omega
        · have := hlater span hmem
          omega
      · rintro ⟨hat, hall⟩
        have hle := le_of_opensNativeAt havoids hat
        refine ⟨⟨.native, code, start⟩, (hnative _ rfl).2 (.inl rfl), rfl, ?_⟩
        have hover := hall ⟨.native, code, start⟩ ((hnative _ rfl).2 (.inl rfl)) rfl
        simp only at hover ⊢
        omega
    case neg =>
      -- After it, the rest decides.
      obtain ⟨later, hposition⟩ := Nat.exists_eq_add_of_le (Nat.le_of_not_lt hin)
      have hplace : offset + position = start + Text.byteLength code + later := by omega
      rw [ht, hposition, ← Text.byteLength_append, opensNativeAt_append, Text.byteLength_append,
        ← hposition, hplace]
      constructor
      · rintro ⟨span, hmem, hkind, hoffset⟩
        rcases (hnative span hkind).1 hmem with rfl | hmem
        · simp only at hoffset
          omega
        · obtain ⟨hat, hall⟩ := (ih later).1 ⟨span, hmem, hkind, hoffset⟩
          refine ⟨hat, fun other hother hkind' hlt => ?_⟩
          rcases (hnative other hkind').1 hother with rfl | hother
          · exact Nat.le_add_right _ _
          · exact hall other hother hkind' hlt
      · rintro ⟨hat, hall⟩
        obtain ⟨span, hmem, hkind, hoffset⟩ := (ih later).2 ⟨hat, fun other hother hkind' =>
          hall other ((hnative other hkind').2 (.inr hother)) hkind'⟩
        exact ⟨span, (hnative span hkind).2 (.inr hmem), hkind, hoffset⟩

/-- A native span reaches as far as its code does. -/
theorem exists_codeReaches (hspan : span ∈ ofTextAt offset t) (hnative : span.kind = .native) :
    ∃ front u code, t = front ++ '<' :: '?' :: u ∧ span.offset = offset + Text.byteLength front ∧
      span.text = '<' :: '?' :: code ∧ CodeReaches u code := by
  fun_induction ofTextAt offset t with
  | case1 offset t =>
    rw [kind_of_mem_markup hspan] at hnative
    cases hnative
  | case2 offset t before code rest hnext start ih =>
    have ht := nextCode?_append hnext
    rcases List.mem_append.1 hspan with hspan | hspan
    · rw [kind_of_mem_markup hspan] at hnative
      cases hnative
    · rcases List.mem_cons.1 hspan with rfl | hspan
      · obtain ⟨-, -, u, hu, hcode⟩ := exists_of_nextCode? hnext
        rw [List.append_assoc, hu] at ht
        exact ⟨before, u, _, ht, rfl, hcode, codeReaches_splitCode u⟩
      · obtain ⟨front, u, code', hrest, hoffset, htext, hreaches⟩ := ih hspan
        refine ⟨before ++ code ++ front, u, code', by rw [ht, hrest]; simp only [List.append_assoc], ?_, htext,
          hreaches⟩
        simp only [Text.byteLength_append]
        omega

/-- The spans of a template cover it in order. A native span starts exactly at the code openers that
    lie in no earlier native span, and reaches as far as its code does; the rest is markup. -/
theorem ofText_native_iff (source : Text) :
    ((ofText source).flatMap Span.text = source ∧ Tiles 0 (ofText source)) ∧
      (∀ position, (∃ span ∈ ofText source, span.kind = .native ∧ span.offset = position) ↔
        OpensNativeAt source position ∧ ∀ span ∈ ofText source, span.kind = .native →
          span.offset < position → span.offset + Text.byteLength span.text ≤ position) ∧
      ∀ span ∈ ofText source, span.kind = .native → ∃ front t code,
        source = front ++ '<' :: '?' :: t ∧ span.offset = Text.byteLength front ∧
          span.text = '<' :: '?' :: code ∧ CodeReaches t code := by
  refine ⟨⟨flatMap_text_ofTextAt 0 source, tiles_ofTextAt 0 source⟩, fun position => ?_, ?_⟩
  · have h := @native_iff 0 source position
    rwa [Nat.zero_add] at h
  · intro span hspan hnative
    obtain ⟨front, t, code, hsource, hoffset, htext, hreaches⟩ := exists_codeReaches hspan hnative
    exact ⟨front, t, code, hsource, by rw [hoffset, Nat.zero_add], htext, hreaches⟩

end Span

end Template
