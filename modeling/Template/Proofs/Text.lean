import Template.Text.Basic

/-! # Places in text

Every search of this library walks a text from left to right and asks one question at each
place. `Avoids` says that the answer is no all along a stretch; a search passes over such a
stretch, and the first place a search finds is one it has avoided until there.
-/

namespace Template.Text

theorem stripPrefix?_eq_none_iff {mark t : Text} :
    stripPrefix? mark t = none ↔ ¬ mark <+: t := by
  constructor
  · rintro h ⟨rest, rfl⟩
    rw [stripPrefix?_append] at h
    cases h
  · intro h
    cases hstrip : stripPrefix? mark t with
    | none => rfl
    | some rest => exact absurd ⟨rest, (stripPrefix?_eq_some hstrip).symm⟩ h

/-- `p` holds at no place inside `s` when `t` follows it. -/
def Avoids (p : Text → Prop) : (s t : Text) → Prop
  | [], _ => True
  | c :: s, t => ¬ p (c :: (s ++ t)) ∧ Avoids p s t

section

variable {p q : Text → Prop} {s t : Text}

@[simp] theorem avoids_nil : Avoids p [] t := trivial

@[simp] theorem avoids_cons {c : Char} :
    Avoids p (c :: s) t ↔ ¬ p (c :: (s ++ t)) ∧ Avoids p s t := Iff.rfl

@[simp] theorem avoids_append {r : Text} :
    Avoids p (r ++ s) t ↔ Avoids p r (s ++ t) ∧ Avoids p s t := by
  induction r with
  | nil => simp
  | cons c r ih => simp only [List.cons_append, avoids_cons, ih, List.append_assoc, and_assoc]

theorem Avoids.mono (h : Avoids p s t) (hpq : ∀ u, q u → p u) : Avoids q s t := by
  induction s with
  | nil => trivial
  | cons c s ih => exact ⟨fun hq => h.1 (hpq _ hq), ih h.2⟩

/-- A property that looks at the first character is avoided where no such character stands. -/
theorem avoids_of_head (h : ∀ c ∈ s, ∀ u, ¬ p (c :: u)) : Avoids p s t := by
  induction s with
  | nil => trivial
  | cons c s ih =>
    exact ⟨h c List.mem_cons_self _, ih fun d hd => h d (List.mem_cons_of_mem c hd)⟩

theorem avoids_iff : Avoids p s t ↔ ∀ a b, s = a ++ b → b ≠ [] → ¬ p (b ++ t) := by
  induction s with
  | nil => simp +contextual
  | cons c s ih =>
    rw [avoids_cons, ih]
    constructor
    · rintro ⟨hhead, htail⟩ a b hab hb
      cases a with
      | nil =>
        rw [List.nil_append] at hab
        subst hab
        exact hhead
      | cons d a =>
        rw [List.cons_append, List.cons.injEq] at hab
        exact htail a b hab.2 hb
    · intro h
      exact ⟨h [] (c :: s) rfl (List.cons_ne_nil c s), fun a b hab hb => h (c :: a) b (by rw [hab]; rfl) hb⟩

/-- What is not avoided has a first place. -/
theorem exists_first_of_not_avoids (h : ¬ Avoids p s t) :
    ∃ front back, s = front ++ back ∧ Avoids p front (back ++ t) ∧ p (back ++ t) := by
  induction s with
  | nil => exact absurd trivial h
  | cons c s ih =>
    by_cases hhere : p (c :: (s ++ t))
    case pos => exact ⟨[], c :: s, rfl, trivial, hhere⟩
    case neg =>
      obtain ⟨front, back, rfl, hfront, hback⟩ := ih fun hlater => h ⟨hhere, hlater⟩
      rw [List.append_assoc] at hhere
      exact ⟨c :: front, back, rfl, ⟨hhere, hfront⟩, hback⟩

end

section

variable {mark s t : Text}

/-- A mark that does not stand in `s` cannot begin in it either, when a character that is not
    part of the mark comes right after. -/
theorem avoids_of_not_infix {c : Char} (hoccurs : ¬ mark <:+: s) (hc : c ∉ mark) :
    Avoids (mark <+: ·) s (c :: t) := by
  rw [avoids_iff]
  rintro a b rfl _ ⟨rest, hrest⟩
  obtain ⟨m, rfl, _⟩ | ⟨m, hm, hrest⟩ := List.append_eq_append_iff.1 hrest
  · exact hoccurs ⟨a, m, by rw [List.append_assoc]⟩
  · cases m with
    | nil =>
      rw [List.append_nil] at hm
      exact hoccurs ⟨a, [], by rw [hm, List.append_nil]⟩
    | cons d m =>
      rw [List.cons_append, List.cons.injEq] at hrest
      exact hc (hm ▸ List.mem_append_right b (hrest.1 ▸ List.mem_cons_self))

/-- A mark without `c` does not reach over a `c`: a place of the mark in the whole text is a place
    in what stands before the `c`, unless it is one in what stands after. -/
theorem exists_of_append_cons_eq {c : Char} {before after : Text} (hc : c ∉ mark)
    (ht : ¬ mark <:+: t) (h : s ++ c :: t = before ++ mark ++ after) :
    ∃ rest, s = before ++ mark ++ rest ∧ after = rest ++ c :: t := by
  obtain ⟨m, hm, hrest⟩ | ⟨m, hm, hrest⟩ := List.append_eq_append_iff.1 h
  · cases m with
    | nil => exact ⟨[], by rw [hm]; simp, by rw [← List.nil_append after, ← hrest]; rfl⟩
    | cons d m =>
      rw [List.cons_append, List.cons.injEq] at hrest
      obtain ⟨rfl, rfl⟩ := hrest
      obtain ⟨x, hx, hmark'⟩ | ⟨x, hx, hmark'⟩ := List.append_eq_append_iff.1 hm
      · exact absurd (hmark' ▸ List.mem_append_right x List.mem_cons_self) hc
      · cases x with
        | nil =>
          rw [List.nil_append] at hmark'
          exact absurd (hmark' ▸ List.mem_cons_self) hc
        | cons e x =>
          rw [List.cons_append, List.cons.injEq] at hmark'
          exact absurd ⟨x, after, by rw [hmark'.2]⟩ ht
  · exact ⟨m, hm, hrest⟩

theorem not_infix_append_cons {c : Char} (hc : c ∉ mark) (hs : ¬ mark <:+: s)
    (ht : ¬ mark <:+: t) : ¬ mark <:+: s ++ c :: t := by
  rintro ⟨before, after, h⟩
  obtain ⟨rest, hrest, -⟩ := exists_of_append_cons_eq hc ht h.symm
  exact hs ⟨before, rest, hrest.symm⟩

theorem avoids_of_not_infix_nil (hmark : ¬ mark <:+: s) : Avoids (mark <+: ·) s [] := by
  rw [avoids_iff]
  rintro a b rfl _ ⟨rest, hrest⟩
  rw [List.append_nil] at hrest
  exact hmark ⟨a, rest, by rw [List.append_assoc, hrest]⟩

/-- A mark does not begin where its first character does not stand. -/
theorem avoids_of_not_mem {c : Char} (h : c ∉ s) : Avoids (c :: mark <+: ·) s t := by
  apply avoids_of_head
  rintro d hd u hbegins
  exact h ((List.cons_prefix_cons.1 hbegins).1 ▸ hd)

/-- A mark of two characters that does not stand in `s` begins in it only where `s` ends with the
    first and `t` starts with the second. -/
theorem avoids_pair {a b : Char} (hoccurs : ¬ [a, b] <:+: s)
    (hends : s.getLast? = some a → t.head? ≠ some b) : Avoids ([a, b] <+: ·) s t := by
  rw [avoids_iff]
  rintro front back rfl hback hbegins
  match back with
  | [c] =>
    cases t with
    | nil => simp [List.cons_prefix_cons] at hbegins
    | cons d t =>
      obtain ⟨rfl, hd⟩ := List.cons_prefix_cons.1 hbegins
      exact hends (by simp) (by rw [(List.cons_prefix_cons.1 hd).1]; rfl)
  | c :: d :: back =>
    obtain ⟨rfl, hd⟩ := List.cons_prefix_cons.1 hbegins
    obtain ⟨rfl, -⟩ := List.cons_prefix_cons.1 hd
    exact hoccurs ⟨front, back, by simp⟩

/-- Where a mark does not begin, nor does it begin behind `c`, unless `c` comes last. -/
theorem avoids_cons_mark {c : Char} (h : Avoids (mark <+: ·) s t) (hlast : s.getLast? ≠ some c) :
    Avoids (c :: mark <+: ·) s t := by
  rw [avoids_iff] at h ⊢
  rintro front back rfl hback hbegins
  match back with
  | [d] =>
    obtain ⟨rfl, -⟩ := List.cons_prefix_cons.1 hbegins
    exact hlast (by simp)
  | d :: e :: back =>
    have hlater := (List.cons_prefix_cons.1 hbegins).2
    exact h (front ++ [d]) (e :: back) (by simp) (List.cons_ne_nil e back) hlater

theorem cut?_append_of_avoids (h : Avoids (mark <+: ·) s t) :
    cut? mark (s ++ t) = (cut? mark t).map fun (before, after) => (s ++ before, after) := by
  induction s with
  | nil =>
    rw [List.nil_append]
    cases cut? mark t <;> rfl
  | cons c s ih =>
    rw [List.cons_append, cut?.eq_def, stripPrefix?_eq_none_iff.2 h.1]
    simp only [ih h.2, Option.map_map]
    rfl

@[simp] theorem cut?_mark_append (mark after : Text) : cut? mark (mark ++ after) = some ([], after) := by
  rw [cut?.eq_def, stripPrefix?_append]

theorem cut?_of_avoids {after : Text} (h : Avoids (mark <+: ·) s (mark ++ after)) :
    cut? mark (s ++ (mark ++ after)) = some (s, after) := by
  rw [cut?_append_of_avoids h, cut?_mark_append]
  simp only [Option.map_some, List.append_nil]

theorem avoids_of_cut?_eq_some {before after : Text} (h : cut? mark t = some (before, after)) :
    Avoids (mark <+: ·) before (mark ++ after) := by
  fun_induction cut? mark t generalizing before after with
  | case1 t rest _ =>
    cases h
    trivial
  | case2 => cases h
  | case3 c t hstrip ih =>
    simp only [Option.map_eq_some_iff, Prod.exists, Prod.mk.injEq] at h
    obtain ⟨b, a, hcut, rfl, rfl⟩ := h
    have ht := cut?_eq_some hcut
    rw [List.append_assoc] at ht
    exact ⟨ht ▸ stripPrefix?_eq_none_iff.1 hstrip, ih hcut⟩

theorem cut?_eq_none_iff : cut? mark t = none ↔ ¬ mark <:+: t := by
  fun_induction cut? mark t with
  | case1 t rest h =>
    simp only [reduceCtorEq, false_iff, Classical.not_not]
    exact ⟨[], rest, by rw [List.nil_append, stripPrefix?_eq_some h]⟩
  | case2 h =>
    simp only [true_iff, List.infix_nil]
    rintro rfl
    cases h
  | case3 c t h ih =>
    rw [Option.map_eq_none_iff, ih, List.infix_cons_iff]
    simp only [stripPrefix?_eq_none_iff.1 h, false_or]

theorem contains_iff : contains mark t = true ↔ mark <:+: t := by
  unfold contains
  rw [Option.isSome_iff_ne_none, ne_eq, cut?_eq_none_iff, Classical.not_not]

theorem byteLength_pos {t : Text} (h : t ≠ []) : 0 < byteLength t := by
  cases t with
  | nil => exact absurd rfl h
  | cons c t =>
    rw [byteLength_cons]
    have := c.utf8Size_pos
    omega

theorem eq_nil_of_byteLength_eq_zero {t : Text} (h : byteLength t = 0) : t = [] := by
  cases t with
  | nil => rfl
  | cons c t => exact absurd h (Nat.ne_of_gt (byteLength_pos (List.cons_ne_nil c t)))

/-- Of two ways to cut a text the one at the later byte position cuts further on. -/
theorem exists_append_of_byteLength_le {front back front' back' : Text}
    (h : front ++ back = front' ++ back') (hle : byteLength front ≤ byteLength front') :
    ∃ more, front' = front ++ more ∧ back = more ++ back' := by
  rcases List.append_eq_append_iff.1 h with ⟨more, hfront, hback⟩ | ⟨more, hfront, hback⟩
  · exact ⟨more, hfront, hback⟩
  · have hmore : more = [] := by
      apply eq_nil_of_byteLength_eq_zero
      rw [hfront, byteLength_append] at hle
      omega
    rw [hmore, List.append_nil] at hfront
    rw [hmore, List.nil_append] at hback
    exact ⟨[], by rw [hfront, List.append_nil], hback.symm⟩

theorem append_inj_of_byteLength_eq {front back front' back' : Text}
    (h : front ++ back = front' ++ back') (hlength : byteLength front = byteLength front') :
    front = front' ∧ back = back' := by
  obtain ⟨more, hfront, hback⟩ := exists_append_of_byteLength_le h (Nat.le_of_eq hlength)
  have hmore : more = [] := by
    apply eq_nil_of_byteLength_eq_zero
    rw [hfront, byteLength_append] at hlength
    omega
  subst hmore
  exact ⟨by rw [hfront, List.append_nil], hback⟩

end

end Template.Text
