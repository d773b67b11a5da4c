import Template.Proofs.DirectiveParse
import Template.Proofs.MatchingParen

/-! # Boundaries of characters

A text is cut at byte positions. A cut is possible where a character begins or the text ends; the byte that
stands anywhere else continues a character. A slice between two positions fails when one of them is no such
boundary or they are out of order.
-/

namespace Template

namespace Bytes

/-- A byte that continues a character of several bytes. -/
def Continues (b : UInt8) : Prop := 0x80 ≤ b ∧ b < 0xC0

/-- A character begins at the position, or the bytes end there. -/
def IsBoundary (bytes : Bytes) (position : Nat) : Prop :=
  position = bytes.length ∨ ∃ b, bytes[position]? = some b ∧ ¬ Continues b

end Bytes

open Bytes (Continues)

/-- All bytes of a character but the first continue it. -/
theorem exists_first_byte (c : Char) : ∃ b more, String.utf8EncodeChar c = b :: more ∧ ¬ Continues b ∧
    ∀ d ∈ more, Continues d := by
  have hfirst : ∀ n : Nat, n < 128 ∨ 192 ≤ n ∧ n < 256 → ¬ Continues (UInt8.ofNat n) := by
    intro n hn
    simp only [Continues, UInt8.le_iff_toNat_le, UInt8.lt_iff_toNat_lt, UInt8.toNat_ofNat']
    change ¬ (128 ≤ n % 256 ∧ n % 256 < 192)
    omega
  have hmore : ∀ n : Nat, n < 64 → Continues (UInt8.ofNat (n + 128)) := by
    intro n hn
    simp only [Continues, UInt8.le_iff_toNat_le, UInt8.lt_iff_toNat_lt, UInt8.toNat_ofNat']
    change 128 ≤ (n + 128) % 256 ∧ (n + 128) % 256 < 192
    omega
  unfold String.utf8EncodeChar
  dsimp only
  split
  · exact ⟨_, [], rfl, hfirst _ (by omega), by simp⟩
  · split
    · refine ⟨_, _, rfl, hfirst _ (by omega), ?_⟩
      simp only [List.forall_mem_cons]
      exact ⟨hmore _ (by omega), by simp⟩
    · split
      · refine ⟨_, _, rfl, hfirst _ (by omega), ?_⟩
        simp only [List.forall_mem_cons]
        exact ⟨hmore _ (by omega), hmore _ (by omega), by simp⟩
      · refine ⟨_, _, rfl, hfirst _ (by omega), ?_⟩
        simp only [List.forall_mem_cons]
        exact ⟨hmore _ (by omega), hmore _ (by omega), hmore _ (by omega), by simp⟩

namespace Text

/-- The text up to the byte position `n`, when a character ends there. -/
def takeBytes? (n : Nat) (t : Text) : Option Text :=
  (dropBytes? n t).map fun rest => t.take (t.length - rest.length)

/-- The text between two byte positions, when both are boundaries of characters and in order. -/
def slice? (start stop : Nat) (t : Text) : Option Text :=
  if start ≤ stop then (dropBytes? start t).bind (takeBytes? (stop - start)) else none

section

variable {front part back t : Text} {position start stop close : Nat}

theorem byteLength_le_append (front t : Text) : byteLength front ≤ byteLength (front ++ t) := by
  rw [byteLength_append]
  exact Nat.le_add_right ..

@[simp] theorem dropBytes?_append (front back : Text) :
    dropBytes? (byteLength front) (front ++ back) = some back := by
  induction front with
  | nil => cases back <;> rfl
  | cons c front ih =>
    have hpos := c.utf8Size_pos
    obtain ⟨n, hn⟩ : ∃ n, c.utf8Size + byteLength front = n + 1 := ⟨c.utf8Size + byteLength front - 1, by omega⟩
    have hsize : c.utf8Size ≤ n + 1 := by omega
    have hrest : n + 1 - c.utf8Size = byteLength front := by omega
    simp only [byteLength_cons, hn, List.cons_append, dropBytes?, hsize, if_true, hrest, ih]

theorem dropBytes?_eq_some_iff : dropBytes? position t = some back ↔
    ∃ front, t = front ++ back ∧ byteLength front = position := by
  constructor
  · intro h
    fun_induction dropBytes? position t with
    | case1 => exact ⟨[], by simpa using h, rfl⟩
    | case2 => cases h
    | case3 n c t hle ih =>
      obtain ⟨front, rfl, hlength⟩ := ih h
      refine ⟨c :: front, rfl, ?_⟩
      rw [byteLength_cons]
      omega
    | case4 => cases h
  · rintro ⟨front, rfl, rfl⟩
    exact dropBytes?_append front back

@[simp] theorem takeBytes?_append (front back : Text) :
    takeBytes? (byteLength front) (front ++ back) = some front := by
  simp [takeBytes?]

theorem slice?_append (front part back : Text) :
    slice? (byteLength front) (byteLength front + byteLength part) (front ++ (part ++ back)) = some part := by
  simp [slice?]

/-- A part that stands in a text is the slice between its ends. -/
theorem slice?_of_eq_append (h : t = front ++ part ++ back) :
    slice? (byteLength front) (byteLength (front ++ part)) t = some part := by
  rw [h, List.append_assoc, byteLength_append, slice?_append]

theorem exists_of_group? {group rest : Text} (h : group? t = some (group, rest)) :
    ∃ inside, group = inside ++ [')'] := by
  unfold group? at h
  split at h
  · simp only [Option.map_eq_some_iff, Prod.exists, Prod.mk.injEq] at h
    obtain ⟨group, _, hclose, rfl, -⟩ := h
    obtain ⟨inside, rfl⟩ := List.getLast?_eq_some_iff.1 (closeGroup?_closes hclose)
    exact ⟨'(' :: inside, rfl⟩
  · cases h

/-- The text can be cut at a position exactly if that is a boundary in its bytes. -/
theorem isBoundary_iff : (utf8 t).IsBoundary position ↔
    ∃ front back, t = front ++ back ∧ byteLength front = position := by
  induction t generalizing position with
  | nil => simp [Bytes.IsBoundary, eq_comm]
  | cons c t ih =>
    obtain ⟨b, more, henc, hfirst, hmore⟩ := exists_first_byte c
    have hsize := String.length_utf8EncodeChar c
    by_cases hinside : position < c.utf8Size
    · cases position with
      | zero =>
        refine iff_of_true (.inr ⟨b, ?_, hfirst⟩) ⟨[], c :: t, rfl, rfl⟩
        rw [utf8_cons, henc]
        rfl
      | succ position =>
        apply iff_of_false
        · rintro (hend | ⟨d, hd, hbegins⟩)
          · simp only [utf8_cons, List.length_append] at hend
            omega
          · rw [utf8_cons, List.getElem?_append_left (by omega), henc, List.getElem?_cons_succ] at hd
            exact hbegins (hmore d (List.mem_of_getElem? hd))
        · rintro ⟨_ | ⟨d, front⟩, back, hcut, hlength⟩
          · cases hlength
          · rw [List.cons_append, List.cons.injEq] at hcut
            rw [byteLength_cons, ← hcut.1] at hlength
            omega
    · have hshift : (utf8 (c :: t)).IsBoundary position ↔ (utf8 t).IsBoundary (position - c.utf8Size) := by
        unfold Bytes.IsBoundary
        rw [utf8_cons, List.getElem?_append_right (by omega), List.length_append, hsize]
        apply or_congr_left
        omega
      rw [hshift, ih]
      constructor
      · rintro ⟨front, back, rfl, hlength⟩
        refine ⟨c :: front, back, rfl, ?_⟩
        rw [byteLength_cons]
        omega
      · rintro ⟨_ | ⟨d, front⟩, back, hcut, hlength⟩
        · have hpos := c.utf8Size_pos
          rw [byteLength_nil] at hlength
          omega
        · rw [List.cons_append, List.cons.injEq] at hcut
          rw [byteLength_cons, ← hcut.1] at hlength
          exact ⟨front, back, hcut.2, by omega⟩

theorem isBoundary_append (front back : Text) : (utf8 (front ++ back)).IsBoundary (byteLength front) :=
  isBoundary_iff.2 ⟨front, back, rfl, rfl⟩

theorem dropBytes?_isSome_iff : (dropBytes? position t).isSome ↔ (utf8 t).IsBoundary position := by
  rw [isBoundary_iff, Option.isSome_iff_exists]
  simp only [dropBytes?_eq_some_iff]
  exact exists_comm

/-- A slice fails exactly when its positions are out of order or one of them is no boundary. -/
theorem slice?_isSome_iff : (slice? start stop t).isSome ↔
    start ≤ stop ∧ (utf8 t).IsBoundary start ∧ (utf8 t).IsBoundary stop := by
  constructor
  · intro h
    obtain ⟨part, hpart⟩ := Option.isSome_iff_exists.1 h
    unfold slice? at hpart
    split at hpart
    case isTrue hle =>
      obtain ⟨rest, hrest, htake⟩ := Option.bind_eq_some_iff.1 hpart
      obtain ⟨back, hback, -⟩ := Option.map_eq_some_iff.1 htake
      obtain ⟨front, rfl, rfl⟩ := dropBytes?_eq_some_iff.1 hrest
      obtain ⟨middle, rfl, hmiddle⟩ := dropBytes?_eq_some_iff.1 hback
      refine ⟨hle, isBoundary_append front _, isBoundary_iff.2 ⟨front ++ middle, back, ?_, ?_⟩⟩
      · simp only [List.append_assoc]
      · simp only [byteLength_append]
        omega
    case isFalse => cases hpart
  · rintro ⟨hle, hstart, hstop⟩
    obtain ⟨front, rest, rfl, rfl⟩ := isBoundary_iff.1 hstart
    obtain ⟨front', back, hcut, rfl⟩ := isBoundary_iff.1 hstop
    obtain ⟨middle, rfl, rfl⟩ := exists_append_of_byteLength_le hcut hle
    rw [byteLength_append, slice?_append]
    rfl

/-- The parentheses of a group and the end of the group are boundaries. -/
theorem isBoundary_of_matchingParen? (h : matchingParen? t position = some close) :
    (utf8 t).IsBoundary position ∧ (utf8 t).IsBoundary close ∧ (utf8 t).IsBoundary (close + 1) := by
  obtain ⟨u, hdrop, hfound⟩ := Option.bind_eq_some_iff.1 h
  obtain ⟨⟨group, rest⟩, hgroup, hclose⟩ := Option.bind_eq_some_iff.1 hfound
  obtain ⟨front, rfl, rfl⟩ := dropBytes?_eq_some_iff.1 hdrop
  obtain rfl := group?_eq_some hgroup
  obtain ⟨inside, rfl⟩ := exists_of_group? hgroup
  have hclose : byteLength (front ++ inside) = close := by
    simp only [Option.pure_def, Option.some.injEq, byteLength_append, byteLength_cons, byteLength_nil] at hclose ⊢
    have hparen : (')' : Char).utf8Size = 1 := rfl
    omega
  have hend : byteLength (front ++ (inside ++ [')'])) = close + 1 := by
    rw [← hclose, ← List.append_assoc, byteLength_append]
    rfl
  refine ⟨isBoundary_append front _, ?_, ?_⟩
  · rw [← hclose, ← List.append_assoc, ← List.append_assoc, List.append_assoc (front ++ inside)]
    exact isBoundary_append _ _
  · rw [← hend, ← List.append_assoc front]
    exact isBoundary_append _ _

end

end Text

end Template
