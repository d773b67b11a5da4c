import Template.Proofs.Directive
import Template.Proofs.Nesting

/-! # The matching parenthesis

The search for the parenthesis that closes a group works on characters and answers with a byte
position. Read as bytes, it is the count of open groups: every byte of a longer character is plain.
So it answers exactly when a group stands at the position, with the last byte of that group.
-/

namespace Template

open Bytes (ascii)

section

variable {c m : Char} {b : UInt8}

theorem ascii_inj (hc : c.val < 128) (hm : m.val < 128) (h : ascii c = ascii m) : c = m := by
  have htoNat := congrArg UInt8.toNat h
  simp only [ascii, UInt32.toNat_toUInt8] at htoNat
  rw [UInt32.lt_iff_toNat_lt] at hc hm
  apply Char.ext
  apply UInt32.toNat_inj.1
  have h128 : (128 : UInt32).toNat = 128 := rfl
  omega

/-- A character is one byte of its own, or some bytes that are no characters of their own. -/
theorem utf8EncodeChar_cases (c : Char) :
    (c.val < 128 ∧ String.utf8EncodeChar c = [ascii c]) ∨
      (128 ≤ c.val ∧ ∀ b ∈ String.utf8EncodeChar c, 128 ≤ b) := by
  by_cases hc : c.val < 128
  case pos =>
    have hsize : c.utf8Size = 1 := by
      rw [Char.utf8Size_eq_one_iff, UInt32.le_iff_toNat_le]
      rw [UInt32.lt_iff_toNat_lt] at hc
      exact Nat.le_of_lt_succ hc
    exact .inl ⟨hc, String.utf8EncodeChar_eq_singleton hsize⟩
  case neg =>
    refine .inr ⟨UInt32.not_lt.1 hc, ?_⟩
    have hlong : ¬ c.val.toNat ≤ 127 := by
      rw [UInt32.lt_iff_toNat_lt] at hc
      have h128 : (128 : UInt32).toNat = 128 := rfl
      omega
    have hbyte : ∀ n : Nat, 128 ≤ n → n < 256 → 128 ≤ UInt8.ofNat n := by
      intro n hlow hhigh
      rw [UInt8.le_iff_toNat_le, UInt8.toNat_ofNat']
      have h128 : (128 : UInt8).toNat = 128 := rfl
      omega
    intro b hb
    unfold String.utf8EncodeChar at hb
    simp only [hlong, if_false] at hb
    -- The lead byte and the others each have a high bit set.
    split at hb
    · simp only [List.mem_cons, List.not_mem_nil, or_false] at hb
      rcases hb with rfl | rfl <;> exact hbyte _ (by omega) (by omega)
    · split at hb
      · simp only [List.mem_cons, List.not_mem_nil, or_false] at hb
        rcases hb with rfl | rfl | rfl <;> exact hbyte _ (by omega) (by omega)
      · simp only [List.mem_cons, List.not_mem_nil, or_false] at hb
        rcases hb with rfl | rfl | rfl | rfl <;> exact hbyte _ (by omega) (by omega)

theorem utf8EncodeChar_of_lt (h : c.val < 128) : String.utf8EncodeChar c = [ascii c] := by
  rcases utf8EncodeChar_cases c with ⟨-, henc⟩ | ⟨hhigh, -⟩
  · exact henc
  · exact absurd h (UInt32.not_lt.2 hhigh)

theorem utf8Size_of_lt (h : c.val < 128) : c.utf8Size = 1 := by
  rw [← String.length_utf8EncodeChar, utf8EncodeChar_of_lt h, List.length_singleton]

theorem exists_utf8EncodeChar (c : Char) : ∃ b more, String.utf8EncodeChar c = b :: more := by
  apply List.exists_cons_of_ne_nil
  intro hnil
  have hlength := String.length_utf8EncodeChar c
  have hpos := c.utf8Size_pos
  rw [hnil, List.length_nil] at hlength
  omega

/-- A byte of a longer character is no mark, whatever the mark. -/
theorem ne_ascii_of_le (hb : 128 ≤ b) (hm : m.val < 128) : b ≠ ascii m := by
  rintro rfl
  rw [UInt8.le_iff_toNat_le, ascii, UInt32.toNat_toUInt8] at hb
  rw [UInt32.lt_iff_toNat_lt] at hm
  have h128 : (128 : UInt32).toNat = 128 := rfl
  have h128' : (128 : UInt8).toNat = 128 := rfl
  omega

theorem ne_ascii_of_mem (hb : b ∈ String.utf8EncodeChar c) (hm : m.val < 128) (hc : c ≠ m) : b ≠ ascii m := by
  rcases utf8EncodeChar_cases c with ⟨hlow, henc⟩ | ⟨-, hhigh⟩
  · rw [henc, List.mem_singleton] at hb
    rw [hb]
    exact fun h => hc (ascii_inj hlow hm h)
  · exact ne_ascii_of_le (hhigh b hb) hm

end

namespace Text

@[simp] theorem utf8_nil : utf8 [] = [] := rfl

@[simp] theorem utf8_cons (c : Char) (t : Text) : utf8 (c :: t) = String.utf8EncodeChar c ++ utf8 t := rfl

@[simp] theorem utf8_append (s t : Text) : utf8 (s ++ t) = utf8 s ++ utf8 t := List.flatMap_append

theorem length_utf8 (t : Text) : (utf8 t).length = byteLength t := by
  induction t with
  | nil => rfl
  | cons c t ih => rw [utf8_cons, List.length_append, String.length_utf8EncodeChar, ih, byteLength_cons]

end Text

namespace Nesting

open Bytes

/-- Quotes are single or double ones. -/
def IsQuote (quote : Char) : Prop := quote = '\'' ∨ quote = '"'

section

variable {depth : Int} {quote c : Char} {b : UInt8} {bytes : Bytes}

theorem IsQuote.lt (h : IsQuote quote) : quote.val < 128 := by
  rcases h with rfl | rfl <;> decide

theorem IsQuote.ascii (h : IsQuote quote) : ascii quote = ascii '\'' ∨ ascii quote = ascii '"' := by
  rcases h with rfl | rfl
  · exact .inl rfl
  · exact .inr rfl

theorem closes?_asciiChar {state later : Nesting} (hc : c.val < 128) (hnext : state.next (ascii c) = later)
    (hdepth : later.depth ≠ 0) (rest : Bytes) :
    state.closes? (String.utf8EncodeChar c ++ rest) = (later.closes? rest).map (· + c.utf8Size) := by
  rw [utf8EncodeChar_of_lt hc, utf8Size_of_lt hc, List.singleton_append, closes?_cons hnext hdepth]

theorem balanced_of_plain (h : ∀ b ∈ bytes, b ∉ groupMarks) : Balanced bytes := by
  induction bytes with
  | nil => exact .nil
  | cons b bytes ih =>
    rw [List.forall_mem_cons] at h
    exact .plain h.1 (ih h.2)

theorem closes?_plainChar (hdepth : 0 < depth) (hopen : c ≠ '(') (hclose : c ≠ ')') (hquote : ¬ IsQuote c)
    (rest : Bytes) :
    closes? ⟨depth, .code⟩ (String.utf8EncodeChar c ++ rest) =
      (closes? ⟨depth, .code⟩ rest).map (· + c.utf8Size) := by
  have hplain : ∀ b ∈ String.utf8EncodeChar c, b ∉ groupMarks := by
    intro b hb
    have hne : ∀ m : Char, m.val < 128 → c ≠ m → b ≠ ascii m := fun m hm hc => ne_ascii_of_mem hb hm hc
    obtain ⟨hsingle, hdouble⟩ := not_or.1 hquote
    simp only [groupMarks, List.mem_cons, List.not_mem_nil, or_false, not_or]
    exact ⟨hne '(' (by decide) hopen, hne ')' (by decide) hclose, hne '\'' (by decide) hsingle,
      hne '"' (by decide) hdouble⟩
  rw [closes?_balanced hdepth (balanced_of_plain hplain), String.length_utf8EncodeChar]

theorem closes?_quotedPlain {q : UInt8} (hdepth : 0 < depth) (h : ∀ b ∈ bytes, b ≠ q ∧ b ≠ ascii '\\')
    (rest : Bytes) :
    closes? ⟨depth, .quoted q⟩ (bytes ++ rest) = (closes? ⟨depth, .quoted q⟩ rest).map (· + bytes.length) := by
  have hhere : depth ≠ 0 := by omega
  induction bytes with
  | nil => simp
  | cons b bytes ih =>
    rw [List.forall_mem_cons] at h
    have hnext : next ⟨depth, .quoted q⟩ b = ⟨depth, .quoted q⟩ := by
      rw [next_quoted h.1.2, if_neg h.1.1]
    rw [List.cons_append, closes?_cons hnext hhere, ih h.2, Option.map_map]
    simp only [Function.comp_def, List.length_cons, Nat.add_assoc]

theorem closes?_quotedChar (hdepth : 0 < depth) (hquote : IsQuote quote) (hc : c ≠ quote) (hescape : c ≠ '\\')
    (rest : Bytes) :
    closes? ⟨depth, .quoted (ascii quote)⟩ (String.utf8EncodeChar c ++ rest) =
      (closes? ⟨depth, .quoted (ascii quote)⟩ rest).map (· + c.utf8Size) := by
  rw [closes?_quotedPlain hdepth, String.length_utf8EncodeChar]
  exact fun b hb => ⟨ne_ascii_of_mem hb hquote.lt hc, ne_ascii_of_mem hb (by decide) hescape⟩

/-- A backslash takes the first byte of the character after it, and the others are plain. -/
theorem closes?_escapedChar (hdepth : 0 < depth) (hquote : IsQuote quote) (c : Char) (rest : Bytes) :
    closes? ⟨depth, .escaped (ascii quote)⟩ (String.utf8EncodeChar c ++ rest) =
      (closes? ⟨depth, .quoted (ascii quote)⟩ rest).map (· + c.utf8Size) := by
  have hhere : depth ≠ 0 := by omega
  have hnext : ∀ b, next ⟨depth, .escaped (ascii quote)⟩ b = ⟨depth, .quoted (ascii quote)⟩ := fun _ => rfl
  obtain ⟨b, more, henc, hmore⟩ : ∃ b more, String.utf8EncodeChar c = b :: more ∧ ∀ d ∈ more, 128 ≤ d := by
    rcases utf8EncodeChar_cases c with ⟨-, henc⟩ | ⟨-, hhigh⟩
    · exact ⟨_, [], henc, by simp⟩
    · obtain ⟨b, more, henc⟩ := exists_utf8EncodeChar c
      rw [henc, List.forall_mem_cons] at hhigh
      exact ⟨b, more, henc, hhigh.2⟩
  have hsize : c.utf8Size = more.length + 1 := by
    rw [← String.length_utf8EncodeChar, henc, List.length_cons]
  rw [henc, List.cons_append, closes?_cons (hnext b) hhere, closes?_quotedPlain hdepth, Option.map_map, hsize]
  · rfl
  · exact fun d hd => ⟨ne_ascii_of_le (hmore d hd) hquote.lt, ne_ascii_of_le (hmore d hd) (by decide)⟩

end

end Nesting

namespace Text

open Nesting (IsQuote)

/-- Where the search for the end of a group stands, as the count of open groups has it. -/
def searchState (groups : Nat) : (quote : Option Char) → Nesting
  | none => ⟨groups + 1, .code⟩
  | some quote => ⟨groups + 1, .quoted (ascii quote)⟩

section

variable {groups position close : Nat} {quote : Option Char} {t group rest : Text}

/-- A character more in front of what the search has found. -/
theorem closes?_map_cons {state later : Nesting} {bytes : Bytes} {c : Char} {found : Option (Text × Text)}
    (hstep : state.closes? (String.utf8EncodeChar c ++ bytes) = (later.closes? bytes).map (· + c.utf8Size))
    (h : later.closes? bytes = found.map fun found => byteLength found.1) :
    state.closes? (String.utf8EncodeChar c ++ bytes) =
      (found.map fun (group, rest) => (c :: group, rest)).map fun found => byteLength found.1 := by
  rw [hstep, h]
  simp only [Option.map_map, Function.comp_def, byteLength_cons, Nat.add_comm]

/-- The search over characters stops where the count over bytes does. -/
theorem closes?_utf8 (hquote : ∀ q ∈ quote, IsQuote q) :
    (searchState groups quote).closes? (utf8 t) = (closeGroup? groups quote t).map fun found => byteLength found.1 := by
  have hdepth : ∀ groups : Nat, 0 < (groups : Int) + 1 := fun groups => by omega
  have hhere : ∀ groups : Nat, (groups : Int) + 1 ≠ 0 := fun groups => by omega
  fun_induction closeGroup? groups quote t with
  | case1 => rfl
  | case2 groups quote =>
    have hcons : utf8 ['\\'] = ascii '\\' :: [] := rfl
    rw [hcons, searchState, Nesting.closes?_cons Nesting.next_backslash (hhere groups)]
    rfl
  | case3 groups quote d t ih =>
    have hescaped := closes?_map_cons (Nesting.closes?_escapedChar (hdepth groups) (hquote quote rfl) d _) (ih hquote)
    have hwhole := closes?_map_cons (Nesting.closes?_asciiChar (by decide) Nesting.next_backslash (hhere groups) _)
      hescaped
    simp only [Option.map_map, Function.comp_def] at hwhole ⊢
    exact hwhole
  | case4 groups quote c t hescape ih =>
    have hquotes := hquote quote rfl
    by_cases hc : c = quote
    · subst hc
      have hnext : Nesting.next ⟨groups + 1, .quoted (ascii c)⟩ (ascii c) = ⟨groups + 1, .code⟩ := by
        rw [Nesting.next_quoted (fun h => hescape (ascii_inj hquotes.lt (by decide) h)), if_pos rfl]
      rw [if_pos rfl] at ih ⊢
      exact closes?_map_cons (Nesting.closes?_asciiChar hquotes.lt hnext (hhere groups) _) (ih (by simp))
    · rw [if_neg hc] at ih ⊢
      exact closes?_map_cons (Nesting.closes?_quotedChar (hdepth groups) hquotes hc hescape _) (ih hquote)
  | case5 t => exact if_pos rfl
  | case6 t groups ih =>
    have hnext : Nesting.next ⟨(groups + 1 : Nat) + 1, .code⟩ (ascii ')') = ⟨groups + 1, .code⟩ := by
      rw [Nesting.next_close, Int.add_sub_cancel]
      rfl
    exact closes?_map_cons (Nesting.closes?_asciiChar (by decide) hnext (hhere groups) _) (ih hquote)
  | case7 groups c t hclose ih =>
    by_cases hmark : c = '\'' ∨ c = '"'
    · have hquotes : IsQuote c := hmark
      have hopen : c ≠ '(' := by
        rintro rfl
        exact absurd hmark (by decide)
      rw [if_neg hopen, if_pos hmark] at ih ⊢
      exact closes?_map_cons
        (Nesting.closes?_asciiChar hquotes.lt (Nesting.next_quoteMark hquotes.ascii) (hhere groups) _)
        (ih (by rintro q ⟨⟩; exact hquotes))
    · rw [if_neg hmark] at ih ⊢
      by_cases hopen : c = '('
      · subst hopen
        have hnext : Nesting.next ⟨groups + 1, .code⟩ (ascii '(') = ⟨(groups + 1 : Nat) + 1, .code⟩ := rfl
        rw [if_pos rfl] at ih ⊢
        exact closes?_map_cons (Nesting.closes?_asciiChar (by decide) hnext (hhere (groups + 1)) _) (ih (by simp))
      · rw [if_neg hopen] at ih ⊢
        exact closes?_map_cons (Nesting.closes?_plainChar (hdepth groups) hopen hclose hmark _) (ih (by simp))

theorem dropBytes?_eq_some {u : Text} (h : dropBytes? position t = some u) : (utf8 t).drop position = utf8 u := by
  fun_induction dropBytes? position t with
  | case1 t => exact congrArg utf8 (Option.some.inj h)
  | case2 => cases h
  | case3 n c t hle ih =>
    have hlength := String.length_utf8EncodeChar c
    rw [utf8_cons, List.drop_append, List.drop_of_length_le (by omega), List.nil_append, hlength, ih h]
  | case4 => cases h

/-- A position that is none of a character's start holds a byte that is no character of its own. -/
theorem le_of_dropBytes?_eq_none (h : dropBytes? position t = none) : ∀ b ∈ (utf8 t)[position]?, 128 ≤ b := by
  fun_induction dropBytes? position t with
  | case1 => cases h
  | case2 => simp
  | case3 n c t hle ih =>
    have hlength := String.length_utf8EncodeChar c
    rw [utf8_cons, List.getElem?_append_right (by omega), hlength]
    exact ih h
  | case4 n c t hlt =>
    have hlength := String.length_utf8EncodeChar c
    intro b hb
    rw [utf8_cons, List.getElem?_append_left (by omega)] at hb
    rcases utf8EncodeChar_cases c with ⟨hlow, -⟩ | ⟨-, hhigh⟩
    · have hsize := utf8Size_of_lt hlow
      omega
    · exact hhigh b (List.mem_of_getElem? hb)

theorem head?_utf8_eq_iff {m : Char} (hm : m.val < 128) : (utf8 t).head? = some (ascii m) ↔ t.head? = some m := by
  cases t with
  | nil => simp
  | cons c t =>
    obtain ⟨b, more, henc⟩ := exists_utf8EncodeChar c
    rw [utf8_cons, henc, List.cons_append, List.head?_cons, List.head?_cons, Option.some.injEq, Option.some.injEq]
    have hb : b ∈ String.utf8EncodeChar c := henc ▸ List.mem_cons_self
    constructor
    · intro h
      exact Classical.byContradiction fun hc => ne_ascii_of_mem hb hm hc h
    · rintro rfl
      rw [utf8EncodeChar_of_lt hm] at hb
      exact List.mem_singleton.1 hb

theorem group?_length (t : Text) : (group? t).map (fun found => byteLength found.1) =
    if t.head? = some '(' then Nesting.start.closes? (utf8 t) else none := by
  cases t with
  | nil => rfl
  | cons c t =>
    by_cases hc : c = '('
    · subst hc
      have hnext : Nesting.start.next (ascii '(') = searchState 0 none := rfl
      have hquote : ∀ q ∈ (none : Option Char), IsQuote q := by simp
      have hfound := closes?_map_cons (Nesting.closes?_asciiChar (by decide) hnext (by decide) _)
        (@closes?_utf8 0 none t hquote)
      exact hfound.symm
    · have hnone : group? (c :: t) = none := by
        unfold group?
        split
        case _ hopen => exact absurd (List.cons.inj hopen).1 hc
        case _ => rfl
      have hhead : ¬ (c :: t).head? = some '(' := fun h => hc (Option.some.inj h)
      rw [hnone, if_neg hhead]
      rfl

/-- The search counts open groups from the position on, if a parenthesis opens one there. -/
theorem matchingParen?_eq (t : Text) (position : Nat) : matchingParen? t position =
    if (utf8 t)[position]? = some (ascii '(') then
      (Nesting.start.closes? ((utf8 t).drop position)).map (position + · - 1)
    else none := by
  cases hdrop : dropBytes? position t with
  | none =>
    have hopen : ¬ (utf8 t)[position]? = some (ascii '(') := fun h =>
      ne_ascii_of_le (le_of_dropBytes?_eq_none hdrop _ h) (by decide) rfl
    rw [if_neg hopen, matchingParen?, hdrop]
    rfl
  | some u =>
    have hbytes := dropBytes?_eq_some hdrop
    have hhead : (utf8 t)[position]? = some (ascii '(') ↔ u.head? = some '(' := by
      rw [← head?_utf8_eq_iff (by decide), ← hbytes, List.head?_drop]
    have hfound : matchingParen? t position =
        ((group? u).map fun found => byteLength found.1).map (position + · - 1) := by
      rw [matchingParen?, hdrop]
      cases hgroup : group? u <;> simp [hgroup]
    rw [hfound, group?_length, hbytes]
    simp only [hhead]
    split <;> rfl

end

end Text

/-- A group stands in the bytes from one position up to another. -/
def Bytes.IsGroupAt (bytes : Bytes) (position close : Nat) : Prop :=
  position ≤ close ∧ close < bytes.length ∧ Bytes.IsGroup ((bytes.drop position).take (close + 1 - position))

namespace Text

variable {position close : Nat} {t : Text}

theorem drop_eq_cons {bytes : Bytes} {b : UInt8} (h : bytes[position]? = some b) :
    ∃ rest, bytes.drop position = b :: rest := by
  rw [← List.head?_drop] at h
  exact List.head?_eq_some_iff.1 h

/-- A parenthesis is found exactly when a group stands from the position up to it. -/
theorem matchingParen?_eq_some_iff : matchingParen? t position = some close ↔ (utf8 t).IsGroupAt position close := by
  rw [matchingParen?_eq]
  constructor
  · intro h
    split at h
    case isFalse => cases h
    case isTrue hopen =>
      obtain ⟨count, hcount, rfl⟩ := Option.map_eq_some_iff.1 h
      obtain ⟨rest, hrest⟩ := drop_eq_cons hopen
      rw [hrest] at hcount
      obtain ⟨hlength, hgroup⟩ := Nesting.isGroup_of_closes? hcount
      have hpos : 0 < count := by
        rcases Nesting.closes?_cons_eq_some hcount with ⟨-, rfl⟩ | ⟨-, more, -, rfl⟩ <;> omega
      rw [← hrest, List.length_drop] at hlength
      have hslice : position + count - 1 + 1 - position = count := by omega
      refine ⟨by omega, by omega, ?_⟩
      rw [hslice, hrest]
      exact hgroup
  · rintro ⟨hle, hlt, hgroup⟩
    have hlength : (((utf8 t).drop position).take (close + 1 - position)).length = close + 1 - position := by
      rw [List.length_take, List.length_drop]
      omega
    have hcount := Nesting.closes?_group hgroup (((utf8 t).drop position).drop (close + 1 - position))
    rw [List.take_append_drop, hlength] at hcount
    have hopen : (utf8 t)[position]? = some (ascii '(') := by
      obtain ⟨inside, -, hslice⟩ := hgroup
      have hhead := congrArg List.head? hslice
      rw [List.head?_take, if_neg (by omega), List.head?_drop] at hhead
      exact hhead
    have hclose : position + (close + 1 - position) - 1 = close := by omega
    rw [if_pos hopen, hcount, Option.map_some, hclose]

theorem matchingParen?_eq_none_iff :
    matchingParen? t position = none ↔ ∀ close, ¬ (utf8 t).IsGroupAt position close := by
  simp only [← matchingParen?_eq_some_iff, Option.eq_none_iff_forall_ne_some, ne_eq]

/-- The count of open groups after some bytes from a position on. -/
def openGroups (t : Text) (position count : Nat) : Int :=
  (Nesting.start.after (((utf8 t).drop position).take count)).depth

/-- From the opening parenthesis on, groups are open until the matching one is read. -/
theorem openGroups_pos (hopen : (utf8 t)[position]? = some (ascii '(')) :
    (∀ close, matchingParen? t position = some close →
      (∀ count, 0 < count → count ≤ close - position → 0 < openGroups t position count) ∧
        openGroups t position (close - position + 1) = 0) ∧
    (matchingParen? t position = none → ∀ count, 0 < count → 0 < openGroups t position count) := by
  obtain ⟨rest, hrest⟩ := drop_eq_cons hopen
  have hopened : Nesting.start.next (ascii '(') = ⟨1, .code⟩ := rfl
  have hcount : Nesting.start.closes? (ascii '(' :: rest) = (Nesting.closes? ⟨1, .code⟩ rest).map (· + 1) :=
    Nesting.closes?_cons hopened (by decide)
  have hafter : ∀ n, openGroups t position (n + 1) = (Nesting.after ⟨1, .code⟩ (rest.take n)).depth := by
    intro n
    rw [openGroups, hrest]
    rfl
  obtain ⟨hsome, hnone⟩ := @Nesting.depth_after_pos ⟨1, .code⟩ rest (by decide)
  rw [matchingParen?_eq, if_pos hopen, hrest, hcount, Option.map_map]
  constructor
  · intro close h
    obtain ⟨more, hmore, hclose⟩ := Option.map_eq_some_iff.1 h
    have hlast : close - position = more := by
      simp only [Function.comp_apply] at hclose
      omega
    obtain ⟨hbefore, hend⟩ := hsome more hmore
    rw [hlast]
    refine ⟨fun count hpos hle => ?_, by rw [hafter, hend]⟩
    obtain ⟨n, rfl⟩ := Nat.exists_eq_succ_of_ne_zero (Nat.ne_of_gt hpos)
    exact hafter n ▸ hbefore n (by omega)
  · intro h count hpos
    obtain ⟨n, rfl⟩ := Nat.exists_eq_succ_of_ne_zero (Nat.ne_of_gt hpos)
    exact hafter n ▸ hnone (Option.map_eq_none_iff.1 h) n

end Text

end Template
