import Template.Proofs.EchoCut
import Template.Proofs.Place

/-! # Markup that comes in pieces

Markup may come to the passes as one piece or cut into several. The passes make the same of it
when no tag that they read lies across a cut and no marker could.
-/

namespace Template

namespace Text

/-- The mark cannot lie across the cut between two texts, because a character that it does not have
    stands right before the cut or right after it. -/
def Bars (mark s t : Text) : Prop :=
  (∃ c ∈ s.getLast?, c ∉ mark) ∨ ∃ c ∈ t.head?, c ∉ mark

section

variable {mark s t front back before after : Text}

theorem Bars.of_append_left (h : Bars mark (front ++ s) t) (hs : s ≠ []) : Bars mark s t := by
  refine h.imp_left ?_
  rw [List.getLast?_append, List.getLast?_eq_some_getLast hs, Option.some_or]
  exact id

theorem Bars.of_append_right (h : Bars mark s (t ++ back)) (ht : t ≠ []) : Bars mark s t := by
  refine h.imp_right ?_
  rw [List.head?_append, List.head?_eq_some_head ht, Option.some_or]
  exact id

theorem avoids_of_bars (hbars : s ≠ [] → Bars mark s t) (hs : ¬ mark <:+: s) :
    Avoids (mark <+: ·) s t := by
  cases s with
  | nil => trivial
  | cons d u =>
    rcases hbars (List.cons_ne_nil d u) with ⟨c, hc, hmark⟩ | ⟨c, hc, hmark⟩
    · rw [avoids_iff]
      rintro a b hab hb ⟨rest, hrest⟩
      rcases List.append_eq_append_iff.1 hrest with ⟨m, hm, -⟩ | ⟨m, hm, -⟩
      · exact hs ⟨a, m, by rw [hab, hm, List.append_assoc]⟩
      · apply hmark
        rw [hm]
        apply List.mem_append_left
        rw [hab, List.getLast?_append, List.getLast?_eq_some_getLast hb, Option.some_or] at hc
        exact Option.mem_some.1 hc ▸ List.getLast_mem hb
    · obtain ⟨v, rfl⟩ := List.head?_eq_some_iff.1 hc
      exact avoids_of_not_infix hs hmark

theorem cut?_append_of_some (more : Text) (h : cut? mark s = some (before, after)) :
    cut? mark (s ++ more) = some (before, after ++ more) := by
  fun_induction cut? mark s generalizing before after with
  | case1 s rest hstrip =>
    cases h
    rw [stripPrefix?_eq_some hstrip, List.append_assoc, cut?_mark_append]
  | case2 => cases h
  | case3 c s hstrip ih =>
    simp only [Option.map_eq_some_iff, Prod.exists, Prod.mk.injEq] at h
    obtain ⟨b, a, hcut, rfl, rfl⟩ := h
    have hlater : stripPrefix? mark (c :: (s ++ more)) = none := by
      rw [stripPrefix?_eq_none_iff] at hstrip ⊢
      intro hbegins
      apply hstrip
      refine List.prefix_of_prefix_length_le hbegins (List.prefix_append (c :: s) more) ?_
      rw [cut?_eq_some hcut]
      simp only [List.length_cons, List.length_append]
      omega
    rw [List.cons_append, cut?.eq_def, hlater]
    simp only [ih hcut, Option.map_some]

theorem infix_append_iff (hbars : s ≠ [] → Bars mark s t) : mark <:+: s ++ t ↔ mark <:+: s ∨ mark <:+: t := by
  constructor
  · intro h
    by_cases hs : mark <:+: s
    · exact .inl hs
    · have hcut := cut?_append_of_avoids (avoids_of_bars hbars hs)
      refine .inr (contains_iff.1 ?_)
      have hcontains := contains_iff.2 h
      unfold contains at hcontains ⊢
      rwa [hcut, Option.isSome_map] at hcontains
  · rintro (h | h)
    · exact h.trans (List.infix_append_left ..)
    · exact h.trans (List.infix_append_right ..)

theorem contains_append (hbars : s ≠ [] → Bars mark s t) :
    contains mark (s ++ t) = (contains mark s || contains mark t) := by
  rw [Bool.eq_iff_iff, Bool.or_eq_true, contains_iff, contains_iff, contains_iff, infix_append_iff hbars]

end

end Text

namespace Markers

/-- No marker of the family can lie across the cut. -/
structure Bars (markers : Markers) (s t : Text) : Prop where
  opening : Text.Bars markers.opening s t
  closing : Text.Bars markers.closing s t

theorem Bars.of_append_left {markers : Markers} {s t front : Text} (h : markers.Bars (front ++ s) t)
    (hs : s ≠ []) : markers.Bars s t :=
  ⟨h.opening.of_append_left hs, h.closing.of_append_left hs⟩

theorem Bars.of_append_right {markers : Markers} {s t back : Text} (h : markers.Bars s (t ++ back))
    (ht : t ≠ []) : markers.Bars s t :=
  ⟨h.opening.of_append_right ht, h.closing.of_append_right ht⟩

section

variable {markers : Markers} {s t : Text}

theorem firstUnclosed?_of_none {position : Nat} (h : Text.cut? markers.opening t = none) :
    markers.firstUnclosed? position t = none := by
  rw [firstUnclosed?]
  split
  · rfl
  · simp_all

theorem firstUnclosed?_of_some {position : Nat} {before after : Text}
    (h : Text.cut? markers.opening t = some (before, after)) :
    markers.firstUnclosed? position t =
      if Text.contains markers.closing after then
        markers.firstUnclosed? (position + Text.byteLength before + Text.byteLength markers.opening) after
      else some (position + Text.byteLength before) := by
  rw [firstUnclosed?]
  split
  · simp_all
  case _ b a h' =>
    rw [h] at h'
    cases h'
    rfl

theorem firstUnclosed?_append_of_avoids (position : Nat) (h : Text.Avoids (markers.opening <+: ·) s t) :
    markers.firstUnclosed? position (s ++ t) =
      markers.firstUnclosed? (position + Text.byteLength s) t := by
  have hcut := Text.cut?_append_of_avoids h
  cases hfirst : Text.cut? markers.opening t with
  | none =>
    rw [hfirst] at hcut
    rw [firstUnclosed?_of_none hcut, firstUnclosed?_of_none hfirst]
  | some found =>
    obtain ⟨before, after⟩ := found
    rw [hfirst] at hcut
    rw [firstUnclosed?_of_some hcut, firstUnclosed?_of_some hfirst]
    simp only [Text.byteLength_append, Nat.add_assoc]

theorem bars_after {before after : Text} (hbars : s ≠ [] → markers.Bars s t)
    (h : Text.cut? markers.opening s = some (before, after)) : after ≠ [] → markers.Bars after t := by
  intro hafter
  rw [Text.cut?_eq_some h] at hbars
  exact (hbars (by simp [hafter])).of_append_left hafter

/-- A closing marker after the cut closes all that is open before it. -/
theorem firstUnclosed?_append_of_contains (position : Nat) (hbars : s ≠ [] → markers.Bars s t)
    (hcloses : Text.contains markers.closing t = true) :
    markers.firstUnclosed? position (s ++ t) =
      markers.firstUnclosed? (position + Text.byteLength s) t := by
  generalize hn : s.length = n
  induction n using Nat.strongRecOn generalizing s position with
  | ind n ih =>
    cases hcut : Text.cut? markers.opening s with
    | none =>
      apply firstUnclosed?_append_of_avoids
      exact Text.avoids_of_bars (fun hs => (hbars hs).opening) (Text.cut?_eq_none_iff.1 hcut)
    | some found =>
      obtain ⟨before, after⟩ := found
      have hafter := bars_after hbars hcut
      have hcontains : Text.contains markers.closing (after ++ t) = true := by
        rw [Text.contains_append fun ha => (hafter ha).closing, hcloses, Bool.or_true]
      have hlt := Text.length_after_lt markers.opening_ne_nil hcut
      rw [firstUnclosed?_of_some (Text.cut?_append_of_some t hcut), if_pos hcontains,
        ih after.length (by omega) _ hafter rfl, Text.cut?_eq_some hcut]
      simp only [Text.byteLength_append, Nat.add_assoc]

theorem firstUnclosed?_append_of_not_contains (position : Nat) (hbars : s ≠ [] → markers.Bars s t)
    (hcloses : Text.contains markers.closing t = false) :
    markers.firstUnclosed? position (s ++ t) =
      (markers.firstUnclosed? position s).or
        (markers.firstUnclosed? (position + Text.byteLength s) t) := by
  fun_induction firstUnclosed? markers position s with
  | case1 position s hcut =>
    rw [Option.none_or]
    apply firstUnclosed?_append_of_avoids
    exact Text.avoids_of_bars (fun hs => (hbars hs).opening) (Text.cut?_eq_none_iff.1 hcut)
  | case2 position s before after hcut here hcontains ih =>
    have hafter := bars_after hbars hcut
    have hlater : Text.contains markers.closing (after ++ t) = true := by
      rw [Text.contains_append fun ha => (hafter ha).closing, hcontains, Bool.true_or]
    rw [firstUnclosed?_of_some (Text.cut?_append_of_some t hcut), if_pos hlater, ih hafter,
      Text.cut?_eq_some hcut]
    simp only [Text.byteLength_append, here, Nat.add_assoc]
  | case3 position s before after hcut here hcontains =>
    have hafter := bars_after hbars hcut
    have hlater : ¬ Text.contains markers.closing (after ++ t) = true := by
      rw [Text.contains_append fun ha => (hafter ha).closing, hcloses, Bool.or_false]
      exact hcontains
    rw [firstUnclosed?_of_some (Text.cut?_append_of_some t hcut), if_neg hlater, Option.some_or]

theorem firstUnclosed?_add (shift position : Nat) (t : Text) :
    markers.firstUnclosed? (shift + position) t =
      (markers.firstUnclosed? position t).map (shift + ·) := by
  fun_induction firstUnclosed? markers position t with
  | case1 position t hcut => rw [firstUnclosed?_of_none hcut, Option.map_none]
  | case2 position t before after hcut here hcontains ih =>
    rw [firstUnclosed?_of_some hcut, if_pos hcontains, ← ih]
    simp only [here, Nat.add_assoc]
  | case3 position t before after hcut here hcontains =>
    rw [firstUnclosed?_of_some hcut, if_neg hcontains, Option.map_some, Nat.add_assoc]

/-- The first unterminated tag of a text in two parts is in the first part, unless that has none. -/
theorem unterminated?_append (offset : Nat) (later : List (Text × Nat)) (hbars : s ≠ [] → markers.Bars s t) :
    markers.unterminated? (s ++ t) later =
      (markers.unterminated? s ((t, offset) :: later)).or
        ((markers.unterminated? t later).map (Text.byteLength s + ·)) := by
  have hshift := @firstUnclosed?_add markers (Text.byteLength s) 0 t
  rw [Nat.add_zero] at hshift
  unfold unterminated?
  rw [List.any_cons]
  generalize later.any _ = closesLater
  cases closesLater with
  | true => simp
  | false =>
    cases hcloses : Text.contains markers.closing t with
    | true =>
      rw [firstUnclosed?_append_of_contains 0 hbars hcloses, Nat.zero_add, hshift]
      simp [hcloses]
    | false =>
      rw [firstUnclosed?_append_of_not_contains 0 hbars hcloses, Nat.zero_add, hshift]
      simp [hcloses]

theorem unterminated?_lt {later : List (Text × Nat)} {place : Nat}
    (h : markers.unterminated? t later = some place) : place < Text.byteLength t := by
  obtain ⟨front, back, rfl, rfl⟩ := unterminated?_eq_some h
  have := Text.byteLength_pos markers.opening_ne_nil
  simp only [Text.byteLength_append]
  omega

end

end Markers

namespace EchoPasses

section

variable {passes : EchoPasses} {s t : Text}

/-- No marker of any family can lie across the cut. -/
def Bars (passes : EchoPasses) (s t : Text) : Prop := ∀ family, (passes.markers family).Bars s t

/-- The earlier of a tag that was found first and the tag of one more family, if it has one. -/
def earlier (first : Option (Nat × TagKind)) (place : Option Nat) (kind : TagKind) : Option (Nat × TagKind) :=
  match place with
  | none => first
  | some place => if first.all fun (earlier, _) => place < earlier then some (place, kind) else first

theorem unterminated?_eq_foldl (t : Text) (later : List (Text × Nat)) :
    passes.unterminated? t later = families.foldl (fun first family =>
      earlier first ((passes.markers family).unterminated? t later) family.kind) none := rfl

/-- Tags found in two parts of a text, of which the first takes `size` bytes, as tags of the whole. -/
def inParts (size : Nat) (first second : Option (Nat × TagKind)) : Option (Nat × TagKind) :=
  first.or (second.map fun (place, kind) => (size + place, kind))

theorem earlier_inParts {size : Nat} {first second : Option (Nat × TagKind)} {place place' : Option Nat}
    (kind : TagKind) (hfirst : ∀ found ∈ first, found.1 < size) (hplace : ∀ p ∈ place, p < size) :
    earlier (inParts size first second) (place.or (place'.map (size + ·))) kind =
      inParts size (earlier first place kind) (earlier second place' kind) := by
  cases first with
  | some found =>
    -- What is in the first part is before all that is in the second.
    have hfound := hfirst found rfl
    cases place with
    | some p =>
      by_cases hlt : p < found.1 <;> simp [inParts, earlier, hlt]
    | none =>
      cases place' with
      | none => rfl
      | some q =>
        have hlater : ¬ size + q < found.1 := by omega
        simp [inParts, earlier, hlater]
  | none =>
    cases place with
    | some p =>
      have hp := hplace p rfl
      cases second with
      | none => rfl
      | some found =>
        have hlater : p < size + found.1 := by omega
        simp [inParts, earlier, hlater]
    | none =>
      cases place' with
      | none => rfl
      | some q =>
        cases second with
        | none => rfl
        | some found =>
          simp only [inParts, earlier, Option.none_or, Option.map_some, Option.all_some,
            Nat.add_lt_add_iff_left]
          split <;> rfl

theorem lt_of_mem_earlier {size : Nat} {first : Option (Nat × TagKind)} {place : Option Nat} {kind : TagKind}
    (hfirst : ∀ found ∈ first, found.1 < size) (hplace : ∀ p ∈ place, p < size) :
    ∀ found ∈ earlier first place kind, found.1 < size := by
  unfold earlier
  split
  · exact hfirst
  · split
    · rintro found ⟨⟩
      exact hplace _ rfl
    · exact hfirst

/-- The earliest unterminated tag of a text in two parts is in the first part, unless that has none. -/
theorem unterminated?_append (offset : Nat) (later : List (Text × Nat)) (hbars : s ≠ [] → passes.Bars s t) :
    passes.unterminated? (s ++ t) later =
      inParts (Text.byteLength s) (passes.unterminated? s ((t, offset) :: later))
        (passes.unterminated? t later) := by
  have fold : ∀ (families : List EchoFamily) (first second : Option (Nat × TagKind)),
      (∀ found ∈ first, found.1 < Text.byteLength s) →
      families.foldl (fun first family => earlier first
          ((passes.markers family).unterminated? (s ++ t) later) family.kind)
          (inParts (Text.byteLength s) first second) =
        inParts (Text.byteLength s)
          (families.foldl (fun first family => earlier first
            ((passes.markers family).unterminated? s ((t, offset) :: later)) family.kind) first)
          (families.foldl (fun first family => earlier first
            ((passes.markers family).unterminated? t later) family.kind) second) := by
    intro families
    induction families with
    | nil => intros; rfl
    | cons family families ih =>
      intro first second hfirst
      have hplace : ∀ p ∈ (passes.markers family).unterminated? s ((t, offset) :: later),
          p < Text.byteLength s := fun p hp => Markers.unterminated?_lt hp
      simp only [List.foldl_cons]
      rw [Markers.unterminated?_append offset later fun hs => hbars hs family,
        earlier_inParts family.kind hfirst hplace]
      exact ih _ _ (lt_of_mem_earlier hfirst hplace)
  rw [unterminated?_eq_foldl, unterminated?_eq_foldl, unterminated?_eq_foldl]
  exact fold families none none (by simp)

theorem checkTerminated_cut (offset : Nat) (later : List (Text × Nat)) (hbars : s ≠ [] → passes.Bars s t) :
    passes.checkTerminated ((s ++ t, offset) :: later) =
      passes.checkTerminated ((s, offset) :: (t, offset + Text.byteLength s) :: later) := by
  simp only [checkTerminated, unterminated?_append (offset + Text.byteLength s) later hbars]
  cases passes.unterminated? s ((t, offset + Text.byteLength s) :: later) with
  | some found => rfl
  | none =>
    cases passes.unterminated? t later with
    | none => rfl
    | some found => simp only [inParts, Option.none_or, Option.map_some, Nat.add_assoc]

/-- The check looks at the markup after a text only for the closing markers in it. -/
theorem checkTerminated_cons_congr {later later' : List (Text × Nat)} (markup : Text × Nat)
    (hcloses : ∀ family,
      (later.any fun (text, _) => Text.contains (passes.markers family).closing text) =
        later'.any fun (text, _) => Text.contains (passes.markers family).closing text)
    (h : passes.checkTerminated later = passes.checkTerminated later') :
    passes.checkTerminated (markup :: later) = passes.checkTerminated (markup :: later') := by
  have hunterminated : passes.unterminated? markup.1 later = passes.unterminated? markup.1 later' := by
    simp only [unterminated?, Markers.unterminated?, hcloses]
  simp only [checkTerminated, hunterminated, h]

end

/-- The second pieces are the first ones with some markup cut at some of the edges, where no marker
    can lie across the cut. -/
inductive Cuts (passes : EchoPasses) (edges : List Nat) : List Piece → List Piece → Prop where
  | nil : Cuts passes edges [] []
  | same {pieces cut : List Piece} (p : Piece) (h : Cuts passes edges pieces cut) :
      Cuts passes edges (p :: pieces) (p :: cut)
  | cut {s t : Text} {offset : Nat} {pieces cut : List Piece} (hs : s ≠ []) (ht : t ≠ [])
      (hedge : offset + Text.byteLength s ∈ edges) (hbars : passes.Bars s t)
      (h : Cuts passes edges (.markup t (offset + Text.byteLength s) :: pieces) cut) :
      Cuts passes edges (.markup (s ++ t) offset :: pieces) (.markup s offset :: cut)

/-- No tag that a pass reads lies across an edge. -/
def NoneAcross (passes : EchoPasses) (family : EchoFamily) (edges : List Nat) (pieces : List Piece) : Prop :=
  ∀ markup ∈ Piece.markups pieces,
    ∀ place ∈ (passes.markers family).tagPlaces markup.2 ((passes.markers family).splitTags markup.1).1,
      ∀ edge ∈ edges, place.2 ≤ edge ∨ edge ≤ place.1

namespace Cuts

section

variable {passes : EchoPasses} {family : EchoFamily} {edges : List Nat} {pieces cut more cut' : List Piece}

theorem append_left (h : Cuts passes edges more cut') (pieces : List Piece) :
    Cuts passes edges (pieces ++ more) (pieces ++ cut') := by
  induction pieces with
  | nil => exact h
  | cons p pieces ih => exact .same p ih

theorem ofMarkup_append {s t : Text} {offset : Nat} (hedge : offset + Text.byteLength s ∈ edges)
    (hbars : s ≠ [] → t ≠ [] → passes.Bars s t)
    (h : Cuts passes edges (Piece.ofMarkup t (offset + Text.byteLength s) ++ pieces) cut) :
    Cuts passes edges (Piece.ofMarkup (s ++ t) offset ++ pieces) (Piece.ofMarkup s offset ++ cut) := by
  by_cases hs : s = []
  · subst hs
    exact h
  · by_cases ht : t = []
    · subst ht
      rw [List.append_nil]
      exact append_left h _
    · simp only [Piece.ofMarkup, hs, ht, List.append_eq_nil_iff, false_and, if_false] at h ⊢
      exact .cut hs ht hedge (hbars hs ht) h

theorem joined_eq (h : Cuts passes edges pieces cut) : Piece.joined pieces = Piece.joined cut := by
  induction h with
  | nil => rfl
  | same p _ ih => rw [Piece.joined_cons, Piece.joined_cons, ih]
  | cut _ _ _ _ _ ih =>
    rw [Piece.joined_cons, Piece.joined_cons, ← ih, Piece.joined_cons]
    exact List.append_assoc ..

theorem any_contains_eq (family : EchoFamily) (h : Cuts passes edges pieces cut) :
    ((Piece.markups pieces).any fun (text, _) => Text.contains (passes.markers family).closing text) =
      (Piece.markups cut).any fun (text, _) => Text.contains (passes.markers family).closing text := by
  induction h with
  | nil => rfl
  | same p _ ih =>
    cases p with
    | output => exact ih
    | markup text offset => exact congrArg (Text.contains _ text || ·) ih
  | @cut s t offset pieces cut hs ht _ hbars _ ih =>
    change (Text.contains _ (s ++ t) || (Piece.markups pieces).any _) =
      (Text.contains _ s || (Piece.markups cut).any _)
    rw [← ih, Text.contains_append fun _ => (hbars family).closing, Bool.or_assoc]
    rfl

theorem checkTerminated_eq (h : Cuts passes edges pieces cut) :
    passes.checkTerminated (Piece.markups pieces) = passes.checkTerminated (Piece.markups cut) := by
  induction h with
  | nil => rfl
  | same p h ih =>
    cases p with
    | output => exact ih
    | markup text offset =>
      exact checkTerminated_cons_congr (text, offset) (fun family => any_contains_eq family h) ih
  | cut _ _ _ hbars h ih =>
    refine (checkTerminated_cut _ _ fun _ => hbars).trans ?_
    exact checkTerminated_cons_congr _ (fun family => any_contains_eq family h) ih

theorem rewriteTags_joinTags {offset : Nat} {parts : List (Text × EchoTag)} {last : Text}
    {later : List (Text × EchoTag) × Text}
    (hedge : offset + Text.byteLength ((passes.markers family).unsplitTags parts last) ∈ edges)
    (hbars : (passes.markers family).unsplitTags parts last ≠ [] →
      (passes.markers family).unsplitTags later.1 later.2 ≠ [] →
        passes.Bars ((passes.markers family).unsplitTags parts last)
          ((passes.markers family).unsplitTags later.1 later.2))
    (h : Cuts passes edges
      (passes.rewriteTags family (offset + Text.byteLength ((passes.markers family).unsplitTags parts last))
        later.1 later.2 ++ pieces) cut) :
    Cuts passes edges
      (passes.rewriteTags family offset (Markers.joinTags (parts, last) later).1
        (Markers.joinTags (parts, last) later).2 ++ pieces)
      (passes.rewriteTags family offset parts last ++ cut) := by
  induction parts generalizing offset with
  | nil =>
    obtain ⟨_ | ⟨⟨before, tag⟩, more⟩, end_⟩ := later
    · exact ofMarkup_append hedge hbars h
    · simp only [Markers.joinTags, rewriteTags, List.nil_append, List.append_assoc,
        Text.byteLength_append, ← Nat.add_assoc] at h ⊢
      refine ofMarkup_append hedge (fun hlast hbefore family' => ?_) h
      have hwhole := hbars hlast (by simp [hbefore]) family'
      simp only [Markers.unsplitTags_cons, List.append_assoc] at hwhole
      exact hwhole.of_append_right hbefore
  | cons part parts ih =>
    obtain ⟨before, tag⟩ := part
    rw [Markers.unsplitTags_cons, Text.byteLength_append, Text.byteLength_append, ← Nat.add_assoc,
      ← Nat.add_assoc] at hedge h
    rw [Markers.unsplitTags_cons] at hbars
    simp only [Markers.joinTags_cons, rewriteTags, List.append_assoc, List.cons_append]
    refine append_left (.same _ (ih hedge (fun hs ht family' => ?_) h)) _
    exact (hbars (by simp [hs]) ht family').of_append_left hs

theorem pass (h : Cuts passes edges pieces cut) (hacross : passes.NoneAcross family edges pieces) :
    Cuts passes edges (passes.pass family pieces) (passes.pass family cut) := by
  induction h with
  | nil => exact .nil
  | @same pieces cut p h ih =>
    refine append_left (ih fun markup hmarkup => hacross markup ?_) (passes.rewritePiece family p)
    cases p with
    | output => exact hmarkup
    | markup => exact List.mem_cons_of_mem _ hmarkup
  | @cut s t offset pieces cut hs ht hedge hbars h ih =>
    -- No tag lies across the cut, so the tags of the whole are those of the two parts.
    have hplaces := hacross (s ++ t, offset) List.mem_cons_self
    have hsplit := Markers.splitTags_append fun place hplace => hplaces place hplace _ hedge
    have hunsplit := (passes.markers family).unsplitTags_splitTags
    have hlater := ih ?_
    · change Cuts passes edges
        (passes.rewriteTags family offset ((passes.markers family).splitTags (s ++ t)).1
          ((passes.markers family).splitTags (s ++ t)).2 ++ passes.pass family pieces)
        (passes.rewriteTags family offset ((passes.markers family).splitTags s).1
          ((passes.markers family).splitTags s).2 ++ passes.pass family cut)
      rw [hsplit]
      refine rewriteTags_joinTags ?_ ?_ ?_
      · rwa [hunsplit]
      · rw [hunsplit, hunsplit]
        exact fun _ _ => hbars
      · rw [hunsplit]
        exact hlater
    · intro markup hmarkup
      rcases List.mem_cons.1 hmarkup with rfl | hmarkup
      · intro place hplace
        refine hplaces place ?_
        rw [hsplit, Markers.tagPlaces_joinTags, hunsplit]
        exact List.mem_append_right _ hplace
      · exact hacross markup (List.mem_cons_of_mem _ hmarkup)

end

end Cuts

/-- Markup in pieces is rewritten as the whole is, or fails as the whole does, when no tag that the
    passes read in the whole lies across an edge. -/
theorem transpilePieces_eq_of_cuts {passes : EchoPasses} {edges : List Nat} {pieces cut : List Piece}
    (h : Cuts passes edges pieces cut) (hraw : passes.NoneAcross .raw edges pieces)
    (hescaped : passes.NoneAcross .escaped edges (passes.pass .raw pieces))
    (hregular : passes.NoneAcross .regular edges (passes.pass .escaped (passes.pass .raw pieces))) :
    passes.transpilePieces pieces = passes.transpilePieces cut := by
  have hrewrite : Cuts passes edges (passes.rewrite pieces) (passes.rewrite cut) :=
    ((h.pass hraw).pass hescaped).pass hregular
  rw [transpilePieces_eq, transpilePieces_eq, hrewrite.checkTerminated_eq, hrewrite.joined_eq]

end EchoPasses

end Template
