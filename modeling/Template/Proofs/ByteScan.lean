import Template.Proofs.CharBoundary
import Template.Proofs.NativeSpan

/-! # Scans over bytes

The end of native code and the parenthesis that closes a group can be looked for byte by byte, in steps of one
and two. A step of two may stop inside a character, but each byte of a longer character is plain, so a scan
passes over the others one by one. It ends where the reader of characters does and never looks beyond the end.
-/

namespace Template

namespace Bytes

/-- A byte taken for the character of its number. -/
def toChar (b : UInt8) : Char := Char.ofNat b.toNat

/-- Where the line break after a closing mark ends, if the mark ends inside the bytes. -/
def closeEnd? (bytes : Bytes) (stop : Nat) : Option Nat :=
  if stop ≤ bytes.length then some (stop + (splitLineBreak ((bytes.drop stop).map toChar)).1.length) else none

/-- Where native code ends that is read byte by byte from a position on. -/
def codeEnd? (bytes : Bytes) (mode : CodeMode) (position : Nat) : Option Nat :=
  if h : position < bytes.length then
    match mode.step (toChar bytes[position]) (bytes[position + 1]?.map toChar) with
    | .close => bytes.closeEnd? (position + 2)
    | .one next => codeEnd? bytes next (position + 1)
    | .two next => codeEnd? bytes next (position + 2)
  else some bytes.length
termination_by bytes.length - position

/-- Where the parenthesis stands that closes the innermost of the open groups, if there is one. The scan
    fails if it has to close a group that is not open. -/
def closeParen? (bytes : Bytes) (groups : Nat) (quote : Option UInt8) (position : Nat) : Option (Option Nat) :=
  if h : position < bytes.length then
    match quote with
    | some quote =>
      if bytes[position] = ascii '\\' then closeParen? bytes groups (some quote) (position + 2)
      else closeParen? bytes groups (if bytes[position] = quote then none else some quote) (position + 1)
    | none =>
      if bytes[position] = ascii '\'' ∨ bytes[position] = ascii '"' then
        closeParen? bytes groups (some bytes[position]) (position + 1)
      else if bytes[position] = ascii '(' then closeParen? bytes (groups + 1) none (position + 1)
      else if bytes[position] = ascii ')' then
        match groups with
        | 0 => none
        | 1 => some (some position)
        | groups + 2 => closeParen? bytes (groups + 1) none (position + 1)
      else closeParen? bytes groups none (position + 1)
  else some none
termination_by bytes.length - position

/-- Where the parenthesis stands that closes the group opened at a position. -/
def matchingParen? (bytes : Bytes) (position : Nat) : Option (Option Nat) :=
  if bytes[position]? = some (ascii '(') then bytes.closeParen? 0 none position else some none

section

variable {b : UInt8} {c m : Char} {t mark : Text}

theorem toNat_toChar (b : UInt8) : (toChar b).toNat = b.toNat := by
  have hlt := b.toNat_lt
  have hvalid : b.toNat.isValidChar := .inl (by omega)
  rw [toChar, Char.ofNat, dif_pos hvalid]
  rfl

theorem toChar_eq_iff (hm : m.val < 128) : toChar b = m ↔ b = ascii m := by
  have hascii : (ascii m).toNat = m.toNat := by
    rw [UInt32.lt_iff_toNat_lt] at hm
    have h128 : (128 : UInt32).toNat = 128 := rfl
    simp only [ascii, UInt32.toNat_toUInt8]
    change m.val.toNat % 256 = m.val.toNat
    omega
  constructor
  · rintro rfl
    apply UInt8.toNat_inj.1
    rw [hascii, toNat_toChar]
  · rintro rfl
    apply Char.toNat_inj.1
    rw [toNat_toChar, hascii]

theorem toChar_ascii (hm : m.val < 128) : toChar (ascii m) = m := (toChar_eq_iff hm).2 rfl

theorem le_toChar (hb : 128 ≤ b) : 128 ≤ (toChar b).val := by
  have hnat := toNat_toChar b
  rw [UInt8.le_iff_toNat_le] at hb
  rw [UInt32.le_iff_toNat_le]
  change 128 ≤ (toChar b).toNat
  rw [hnat]
  exact hb

/-- The first byte of a text is a mark exactly if its first character is. -/
theorem head?_toChar_eq_iff (hm : m.val < 128) : (Text.utf8 t).head?.map toChar = some m ↔ t.head? = some m := by
  rw [← Text.head?_utf8_eq_iff hm]
  simp only [Option.map_eq_some_iff, toChar_eq_iff hm, exists_eq_right]

theorem prefix_toChar_iff (hmark : ∀ m ∈ mark, m.val < 128) :
    mark <+: (Text.utf8 t).map toChar ↔ mark <+: t := by
  induction mark generalizing t with
  | nil => simp
  | cons m mark ih =>
    rw [List.forall_mem_cons] at hmark
    cases t with
    | nil => simp
    | cons c t =>
      have hhead := @head?_toChar_eq_iff m (c :: t) hmark.1
      rw [List.head?_cons, Option.some.injEq] at hhead
      by_cases hc : c = m
      · subst hc
        rw [Text.utf8_cons, utf8EncodeChar_of_lt hmark.1]
        simp [toChar_ascii hmark.1, List.cons_prefix_cons, ih hmark.2]
      · apply iff_of_false
        · rintro ⟨u, hu⟩
          apply hc
          rw [← hhead, ← List.head?_map, ← hu]
          rfl
        · intro h
          exact hc (List.cons_prefix_cons.1 h).1.symm

theorem splitLineBreak_toChar (t : Text) :
    (splitLineBreak ((Text.utf8 t).map toChar)).1 = (splitLineBreak t).1 := by
  have hbytes := isLineBreakOf_splitLineBreak ((Text.utf8 t).map toChar)
  have hchars := isLineBreakOf_splitLineBreak t
  have hfeed : ∀ c ∈ ['\n'], c.val < 128 := List.forall_mem_singleton.2 (by decide)
  have hreturn : ∀ c ∈ ['\r', '\n'], c.val < 128 := List.forall_mem_cons.2 ⟨by decide, hfeed⟩
  simp only [IsLineBreakOf, prefix_toChar_iff hfeed, prefix_toChar_iff hreturn] at hbytes hchars
  have hboth : ¬ (['\r', '\n'] <+: t ∧ ['\n'] <+: t) := by
    rintro ⟨⟨u, rfl⟩, v, hv⟩
    cases hv
  grind

end

end Bytes

namespace CodeMode

open Bytes (toChar ascii)

/-- Quotes that are open are a character of one byte. -/
def HasAsciiQuote (mode : CodeMode) : Prop := ∀ quote, mode = quoted quote → quote.val < 128

section

variable {mode next : CodeMode} {c : Char} {b : UInt8}

theorem step_of_le (hmode : mode.HasAsciiQuote) (hc : 128 ≤ c.val) (following : Option Char) :
    mode.step c following = .one mode := by
  have hne : ∀ m : Char, m.val < 128 → c ≠ m := by
    rintro m hm rfl
    exact absurd hm (UInt32.not_lt.2 hc)
  cases mode with
  | quoted quote => simp [step, hne '\\' (by decide), hne quote (hmode quote rfl)]
  | code | lineComment | blockComment =>
    simp [step, hne '?' (by decide), hne '\'' (by decide), hne '"' (by decide), hne '#' (by decide),
      hne '/' (by decide), hne '\n' (by decide), hne '*' (by decide)]

/-- Only a character of one byte does anything but go on in the same mode. -/
theorem HasAsciiQuote.lt_of_step {following : Option Char} {taken : Step} (hmode : mode.HasAsciiQuote)
    (hstep : mode.step c following = taken) (htaken : ∀ next, taken ≠ .one next) : c.val < 128 := by
  apply Classical.byContradiction
  intro hwide
  rw [step_of_le hmode (UInt32.not_lt.1 hwide)] at hstep
  exact htaken mode hstep.symm

/-- The step at a character is the one at its byte, with the byte after it. -/
theorem step_toChar (mode : CodeMode) (c : Char) (t : Text) :
    mode.step c ((Text.utf8 t).head?.map toChar) = mode.step c t.head? := by
  have hhead : ∀ m : Char, m.val < 128 → ((Text.utf8 t).head?.map toChar = some m ↔ t.head? = some m) :=
    fun m hm => Bytes.head?_toChar_eq_iff hm
  cases mode <;> simp only [step, hhead '>' (by decide), hhead '/' (by decide), hhead '*' (by decide)]

theorem HasAsciiQuote.of_step {following : Option Char} (h : mode.HasAsciiQuote)
    (hstep : mode.step c following = .one next ∨ mode.step c following = .two next) : next.HasAsciiQuote := by
  rintro quote rfl
  cases mode with
  | quoted => grind [step, HasAsciiQuote]
  | code =>
    have hquote : c = quote ∧ (c = '\'' ∨ c = '"') := by grind [step]
    rcases hquote with ⟨rfl, rfl | rfl⟩ <;> decide
  | lineComment | blockComment => grind [step]

end

end CodeMode

namespace Bytes

section

variable {mode next : CodeMode} {b : UInt8} {front bytes rest : Bytes}

theorem codeEnd?_close (hstep : mode.step (toChar b) (rest.head?.map toChar) = .close) :
    (front ++ b :: rest).codeEnd? mode front.length = (front ++ b :: rest).closeEnd? (front.length + 2) := by
  rw [codeEnd?, dif_pos (by simp)]
  simp [List.getElem?_append_right, ← List.head?_eq_getElem?, hstep]

theorem codeEnd?_one (hstep : mode.step (toChar b) (rest.head?.map toChar) = .one next) :
    (front ++ b :: rest).codeEnd? mode front.length = ((front ++ [b]) ++ rest).codeEnd? next (front ++ [b]).length := by
  rw [codeEnd?, dif_pos (by simp)]
  simp [List.getElem?_append_right, ← List.head?_eq_getElem?, hstep]

theorem codeEnd?_two (hstep : mode.step (toChar b) (rest.head?.map toChar) = .two next) :
    (front ++ b :: rest).codeEnd? mode front.length = (front ++ b :: rest).codeEnd? next (front.length + 2) := by
  rw [codeEnd?, dif_pos (by simp)]
  simp [List.getElem?_append_right, ← List.head?_eq_getElem?, hstep]

theorem codeEnd?_of_le {position : Nat} (h : bytes.length ≤ position) :
    bytes.codeEnd? mode position = some bytes.length := by
  rw [codeEnd?, dif_neg (by omega)]

/-- The reader passes over the bytes of longer characters. -/
theorem codeEnd?_plain {plain : Bytes} (hmode : mode.HasAsciiQuote) (hplain : ∀ b ∈ plain, 128 ≤ b) :
    (front ++ (plain ++ rest)).codeEnd? mode front.length =
      ((front ++ plain) ++ rest).codeEnd? mode (front ++ plain).length := by
  induction plain generalizing front with
  | nil => simp
  | cons b plain ih =>
    rw [List.forall_mem_cons] at hplain
    have hstep : mode.step (toChar b) ((plain ++ rest).head?.map toChar) = .one mode :=
      CodeMode.step_of_le hmode (le_toChar hplain.1) _
    rw [List.cons_append, codeEnd?_one hstep, ih hplain.2]
    simp

theorem closeEnd?_append (t : Text) : (front ++ Text.utf8 t).closeEnd? front.length =
    some (front.length + Text.byteLength (splitLineBreak t).1) := by
  have hlength : (splitLineBreak t).1.length = Text.byteLength (splitLineBreak t).1 := by
    rcases splitLineBreak_fst_cases t with h | h | h <;> rw [h] <;> rfl
  simp [closeEnd?, splitLineBreak_toChar, hlength]

/-- Read as bytes, native code ends where it does read as characters. -/
theorem codeEnd?_append (hmode : mode.HasAsciiQuote) (front : Bytes) (t : Text) :
    (front ++ Text.utf8 t).codeEnd? mode front.length =
      some (front.length + Text.byteLength (splitCode mode t).1) := by
  fun_induction splitCode mode t generalizing front with
  | case1 => simp [codeEnd?]
  | case2 mode c t hstep lineBreak rest hbreak =>
    have hc := hmode.lt_of_step hstep (by simp)
    obtain ⟨u, rfl⟩ := List.head?_eq_some_iff.1 (CodeMode.next_eq_of_step_eq_close hstep)
    have hclose : mode.step (toChar (ascii c)) ((Text.utf8 ('>' :: u)).head?.map toChar) = .close := by
      rw [toChar_ascii hc, CodeMode.step_toChar, hstep]
    have hend := @closeEnd?_append (front ++ [ascii c, ascii '>']) u
    rw [List.drop_succ_cons, List.drop_zero] at hbreak
    rw [hbreak, List.append_assoc, List.length_append] at hend
    rw [Text.utf8_cons, utf8EncodeChar_of_lt hc, List.singleton_append, codeEnd?_close hclose, Text.utf8_cons,
      utf8EncodeChar_of_lt (by decide), List.singleton_append]
    refine hend.trans ?_
    have hparen : ('>' : Char).utf8Size = 1 := rfl
    simp [utf8Size_of_lt hc, hparen]
    omega
  | case3 mode c t next hstep code rest hcode ih =>
    rw [hcode] at ih
    rcases utf8EncodeChar_cases c with ⟨hc, henc⟩ | ⟨hc, hplain⟩
    · have hone : mode.step (toChar (ascii c)) ((Text.utf8 t).head?.map toChar) = .one next := by
        rw [toChar_ascii hc, CodeMode.step_toChar, hstep]
      rw [Text.utf8_cons, henc, List.singleton_append, codeEnd?_one hone, ih (hmode.of_step (.inl hstep))]
      simp [utf8Size_of_lt hc, Nat.add_assoc]
    · obtain rfl : mode = next := by
        rw [CodeMode.step_of_le hmode hc] at hstep
        exact CodeMode.Step.one.inj hstep
      rw [Text.utf8_cons, codeEnd?_plain hmode hplain, ih hmode]
      simp [Nat.add_assoc]
  | case4 mode c next hstep =>
    have hc := hmode.lt_of_step hstep (by simp)
    have htwo : mode.step (toChar (ascii c)) ((Text.utf8 []).head?.map toChar) = .two next := by
      rw [toChar_ascii hc, CodeMode.step_toChar, hstep]
    rw [Text.utf8_cons, utf8EncodeChar_of_lt hc, List.singleton_append, codeEnd?_two htwo,
      codeEnd?_of_le (by simp)]
    simp [utf8Size_of_lt hc]
  | case5 mode c next d t code rest hcode hstep ih =>
    have hc := hmode.lt_of_step hstep (by simp)
    have hnext : next.HasAsciiQuote := hmode.of_step (.inr hstep)
    have htwo : mode.step (toChar (ascii c)) ((Text.utf8 (d :: t)).head?.map toChar) = .two next := by
      rw [toChar_ascii hc, CodeMode.step_toChar]
      exact hstep
    obtain ⟨b, more, henc, -, hmore⟩ := exists_first_byte d
    have hsize : d.utf8Size = more.length + 1 := by
      rw [← String.length_utf8EncodeChar, henc, List.length_cons]
    -- The step ends behind the first byte of the second character, and the others are plain.
    have hrest := @codeEnd?_plain next (front ++ [ascii c, b]) (Text.utf8 t) more hnext fun d hd => (hmore d hd).1
    rw [ih hnext, hcode] at hrest
    rw [Text.utf8_cons, utf8EncodeChar_of_lt hc, List.singleton_append, codeEnd?_two htwo, Text.utf8_cons, henc]
    simp only [List.append_assoc, List.length_append] at hrest
    refine hrest.trans ?_
    simp [utf8Size_of_lt hc, hsize]
    omega

/-- Where the count of open groups stands among quotes. -/
def quoteMode : Option UInt8 → QuoteMode
  | none => .code
  | some quote => .quoted quote

/-- A byte that leaves a group open brings the search from one position to the next. -/
theorem map_closes?_drop {state later : Nesting} {position : Nat} (h : position < bytes.length)
    (hnext : state.next bytes[position] = later) (hopen : later.depth ≠ 0) :
    (state.closes? (bytes.drop position)).map (position + · - 1) =
      (later.closes? (bytes.drop (position + 1))).map (position + 1 + · - 1) := by
  rw [List.drop_eq_getElem_cons h, Nesting.closes?_cons hnext hopen, Option.map_map]
  simp only [Function.comp_def, Nat.add_assoc, Nat.add_comm 1]

/-- The scan for a parenthesis is the count of open groups, and one is open at every step of it. -/
theorem closeParen?_eq {groups position : Nat} {quote : Option UInt8} (hgroups : 0 < groups) :
    bytes.closeParen? groups quote position =
      some ((Nesting.closes? ⟨groups, quoteMode quote⟩ (bytes.drop position)).map (position + · - 1)) := by
  have hopen : (groups : Int) ≠ 0 := by omega
  fun_induction closeParen? bytes groups quote position with
  | case1 groups position h quote hescape ih =>
    have hnext : Nesting.next ⟨groups, .quoted quote⟩ bytes[position] = ⟨groups, .escaped quote⟩ := by
      rw [hescape, Nesting.next_backslash]
    rw [ih hgroups hopen, quoteMode, map_closes?_drop h hnext hopen]
    by_cases hlater : position + 1 < bytes.length
    · have hescaped : Nesting.next ⟨groups, .escaped quote⟩ bytes[position + 1] = ⟨groups, .quoted quote⟩ := rfl
      rw [map_closes?_drop hlater hescaped hopen]
    · -- The backslash is the last byte, and both searches are at the end.
      rw [List.drop_of_length_le (by omega), List.drop_of_length_le (by omega)]
      rfl
  | case2 groups position h quote hescape ih =>
    have hnext : Nesting.next ⟨groups, .quoted quote⟩ bytes[position] =
        ⟨groups, quoteMode (if bytes[position] = quote then none else some quote)⟩ := by
      rw [Nesting.next_quoted hescape]
      split <;> rfl
    simp only [dite_eq_ite] at ih
    rw [ih hgroups hopen, quoteMode.eq_def (some quote), map_closes?_drop h hnext hopen]
  | case3 groups position h hquote ih =>
    rw [ih hgroups hopen, quoteMode, map_closes?_drop h (Nesting.next_quoteMark hquote) hopen]
    rfl
  | case4 groups position h hquote hparen ih =>
    have hnext : Nesting.next ⟨groups, .code⟩ bytes[position] = ⟨(groups + 1 : Nat), .code⟩ := by
      rw [hparen, Nesting.next_open]
      rfl
    rw [ih (by omega) (by omega), quoteMode, map_closes?_drop h hnext (by simp only; omega)]
  | case5 => omega
  | case6 position h hquote hparen hclose =>
    rw [List.drop_eq_getElem_cons h, hclose]
    rfl
  | case7 position h hquote hparen hclose groups ih =>
    have hnext : Nesting.next ⟨(groups + 2 : Nat), .code⟩ bytes[position] = ⟨(groups + 1 : Nat), .code⟩ := by
      rw [hclose, Nesting.next_close]
      congr 1
      omega
    rw [ih (by omega) (by omega), quoteMode, map_closes?_drop h hnext (by simp only; omega)]
  | case8 groups position h hquote hparen hclose ih =>
    have hnext : Nesting.next ⟨groups, .code⟩ bytes[position] = ⟨groups, .code⟩ := by
      simp only [Nesting.next, hquote, hparen, hclose, if_false]
    rw [ih hgroups hopen, quoteMode, map_closes?_drop h hnext hopen]
  | case9 groups quote position h =>
    rw [List.drop_of_length_le (by omega)]
    rfl

/-- Read as bytes, the parenthesis that closes a group is the one it is read as characters. -/
theorem matchingParen?_utf8 (t : Text) (position : Nat) :
    (Text.utf8 t).matchingParen? position = some (Text.matchingParen? t position) := by
  rw [Text.matchingParen?_eq, matchingParen?]
  split
  case isTrue hparen =>
    obtain ⟨h, hbyte⟩ := List.getElem?_eq_some_iff.1 hparen
    have hnext : Nesting.start.next (Text.utf8 t)[position] = ⟨1, .code⟩ := by
      rw [hbyte]
      rfl
    have hquote : ¬ (ascii '(' = ascii '\'' ∨ ascii '(' = ascii '"') := by decide
    rw [closeParen?, dif_pos h, map_closes?_drop h hnext (by decide)]
    simp only [hbyte, hquote, if_false, if_true]
    exact closeParen?_eq (by decide)
  case isFalse => rfl

end

end Bytes

end Template
