import Template.Proofs.CommentReading
import Template.Proofs.CutMarkup
import Template.Proofs.SegmentEcho

/-! # Markers that are left open

An opening marker in markup is open when no closing marker of its family comes after it, neither in its
own piece nor in later markup. The check for unterminated tags looks only at opening markers that do not
overlap, family by family. All the same it reports the first of all open ones, since a closing marker
cannot begin inside the one of two overlapping opening markers that comes later.
-/

namespace Template

theorem Text.infix_of_avoids {mark s t : Text} (h : Text.Avoids (mark <+: ·) s t) (hwithin : mark <:+: s ++ t) :
    mark <:+: t := by
  apply Classical.byContradiction
  intro hnone
  have hcut := Text.cut?_append_of_avoids h
  rw [Text.cut?_eq_none_iff.2 hnone] at hcut
  exact Text.cut?_eq_none_iff.1 hcut hwithin

namespace Markers

/-- What sticks out of an opening marker that overlaps another one adds no closing marker to the text
    behind it. -/
def Separate (markers : Markers) : Prop :=
  ∀ x y z back : Text, markers.opening = x ++ y → markers.opening = y ++ z → x ≠ [] → y ≠ [] →
    markers.closing <:+: z ++ back → markers.closing <:+: back

/-- Between `front` and `back` stands an opening marker that no closing marker of the text follows. -/
structure OpenIn (markers : Markers) (t front back : Text) : Prop where
  opens : t = front ++ markers.opening ++ back
  notClosed : ¬ markers.closing <:+: back

section

variable {markers : Markers} {t before after front back : Text} {c : Char} {position place : Nat}

theorem separate_of_closing (hclosing : markers.closing.head? = some c) (hc : c ∉ markers.opening) :
    markers.Separate := by
  intro x y z back _ hz _ _ hwithin
  obtain ⟨rest, hrest⟩ := List.head?_eq_some_iff.1 hclosing
  rw [hrest] at hwithin ⊢
  apply Text.infix_of_avoids (Text.avoids_of_not_mem _) hwithin
  intro hmem
  exact hc (hz ▸ List.mem_append_right y hmem)

theorem separate_of_opening {tail : Text} (hopening : markers.opening = c :: tail) (hc : c ∉ tail) :
    markers.Separate := by
  intro x y z back hx hz hxne hyne _
  obtain ⟨d, x, rfl⟩ := List.exists_cons_of_ne_nil hxne
  obtain ⟨e, y, rfl⟩ := List.exists_cons_of_ne_nil hyne
  rw [hopening, List.cons_append, List.cons.injEq] at hx hz
  rw [hx.2, hz.1] at hc
  simp at hc

/-- Once the first opening marker is closed, an open one comes after it. -/
theorem OpenIn.exists_after (hseparate : markers.Separate) (hopen : markers.OpenIn t front back)
    (hfirst : Text.IsFirst markers.opening t before after) (hcloses : markers.closing <:+: after) :
    ∃ more, front = before ++ markers.opening ++ more ∧ after = more ++ markers.opening ++ back := by
  have hwhole : before ++ (markers.opening ++ after) = front ++ (markers.opening ++ back) := by
    simp only [← List.append_assoc, ← hfirst.1, ← hopen.opens]
  obtain ⟨x, rfl, hrest⟩ := Text.exists_append_of_byteLength_le hwhole (hfirst.2 front back hopen.opens)
  rcases List.append_eq_append_iff.1 hrest with ⟨more, rfl, hafter⟩ | ⟨y, hx, hy⟩
  · exact ⟨more, by simp, by rw [hafter, List.append_assoc]⟩
  · -- The open marker begins inside the first one, or it is the first one.
    by_cases hyne : y = []
    · subst hyne
      exact ⟨[], by simp [hx], by simpa using hy.symm⟩
    · rcases List.append_eq_append_iff.1 hy with ⟨z, hz, hback⟩ | ⟨z, hz, hafter⟩
      · have hlength := congrArg List.length hx
        rw [hz] at hlength
        simp only [List.length_append] at hlength
        have hxnil : x = [] := List.eq_nil_of_length_eq_zero (by omega)
        have hznil : z = [] := List.eq_nil_of_length_eq_zero (by omega)
        rw [hznil, List.nil_append] at hback
        exact absurd (hback ▸ hcloses) hopen.notClosed
      · by_cases hxne : x = []
        · rw [hxne, List.nil_append] at hx
          rw [hx] at hz
          have hznil : z = [] := List.self_eq_append_right.1 hz
          rw [hznil, List.nil_append] at hafter
          exact absurd (hafter ▸ hcloses) hopen.notClosed
        · rw [hafter] at hcloses
          exact absurd (hseparate x y z back hx hz hxne hyne hcloses) hopen.notClosed

theorem openIn_of_firstUnclosed? (h : markers.firstUnclosed? position t = some place) :
    ∃ front back, markers.OpenIn t front back ∧ place = position + Text.byteLength front := by
  fun_induction firstUnclosed? markers position t with
  | case1 => cases h
  | case2 position t before after hcut here hcontains ih =>
    obtain ⟨front, back, hopen, rfl⟩ := ih h
    refine ⟨before ++ markers.opening ++ front, back, ⟨?_, hopen.notClosed⟩, ?_⟩
    · simp only [Text.cut?_eq_some hcut, hopen.opens, List.append_assoc]
    · simp only [Text.byteLength_append, here]
      omega
  | case3 position t before after hcut here hcontains =>
    refine ⟨before, after, ⟨Text.cut?_eq_some hcut, ?_⟩, (Option.some.inj h).symm⟩
    intro hcloses
    exact hcontains (Text.contains_iff.2 hcloses)

/-- The search passes over opening markers that overlap, but never over an open one. -/
theorem OpenIn.exists_firstUnclosed? (hseparate : markers.Separate) (h : markers.OpenIn t front back)
    (position : Nat) :
    ∃ place, markers.firstUnclosed? position t = some place ∧ place ≤ position + Text.byteLength front := by
  induction hn : t.length using Nat.strongRecOn generalizing t front position with
  | ind n ih =>
    subst hn
    cases hcut : Text.cut? markers.opening t with
    | none => exact absurd ⟨front, back, h.opens.symm⟩ (Text.cut?_eq_none_iff.1 hcut)
    | some found =>
      obtain ⟨before, after⟩ := found
      have hfirst := Text.isFirst_of_cut? hcut
      rw [firstUnclosed?_of_some hcut]
      by_cases hcontains : Text.contains markers.closing after = true
      · rw [if_pos hcontains]
        obtain ⟨more, rfl, hmore⟩ := h.exists_after hseparate hfirst (Text.contains_iff.1 hcontains)
        have hshorter := Text.length_after_lt markers.opening_ne_nil hcut
        obtain ⟨place, hplace, hle⟩ := ih _ hshorter ⟨hmore, h.notClosed⟩ _ rfl
        refine ⟨place, hplace, ?_⟩
        simp only [Text.byteLength_append]
        omega
      · rw [if_neg hcontains]
        have hle := hfirst.2 front back h.opens
        exact ⟨_, rfl, by omega⟩

/-- What is reported for a text is an open marker, and no later markup closes it. -/
theorem openIn_of_unterminated? {later : List (Text × Nat)} (h : markers.unterminated? t later = some place) :
    (∀ markup ∈ later, ¬ markers.closing <:+: markup.1) ∧
      ∃ front back, markers.OpenIn t front back ∧ place = Text.byteLength front := by
  unfold unterminated? at h
  split at h
  · cases h
  case _ hcloses =>
    obtain ⟨front, back, hopen, hplace⟩ := openIn_of_firstUnclosed? h
    refine ⟨?_, front, back, hopen, by omega⟩
    intro markup hmarkup hwithin
    exact hcloses (List.any_eq_true.2 ⟨markup, hmarkup, Text.contains_iff.2 hwithin⟩)

theorem OpenIn.exists_unterminated? (hseparate : markers.Separate) (h : markers.OpenIn t front back)
    {later : List (Text × Nat)} (hlater : ∀ markup ∈ later, ¬ markers.closing <:+: markup.1) :
    ∃ place, markers.unterminated? t later = some place ∧ place ≤ Text.byteLength front := by
  unfold unterminated?
  rw [if_neg]
  · obtain ⟨place, hplace, hle⟩ := h.exists_firstUnclosed? hseparate 0
    exact ⟨place, hplace, by omega⟩
  · intro hcloses
    obtain ⟨markup, hmarkup, hwithin⟩ := List.any_eq_true.1 hcloses
    exact hlater markup hmarkup (Text.contains_iff.1 hwithin)

end

end Markers

theorem EchoFamily.eq_of_rank_eq {family other : EchoFamily} (h : family.rank = other.rank) : family = other := by
  cases family <;> cases other <;> first | rfl | cases h

/-- Where an opening marker stands among pieces. -/
structure OpenMark where
  /-- Number of pieces before the one that it is in. -/
  index : Nat
  /-- Byte position of that piece. -/
  offset : Nat
  /-- Text of the piece before the marker. -/
  front : Text
  family : EchoFamily
  deriving DecidableEq, Repr

namespace OpenMark

/-- The marker as an error at its place. -/
def error (mark : OpenMark) : TranspileError :=
  .unterminatedTag mark.family.kind (mark.offset + Text.byteLength mark.front)

/-- Markers in the order of their pieces, then of their positions, then of their families. -/
def NotAfter (mark other : OpenMark) : Prop :=
  mark.index < other.index ∨ mark.index = other.index ∧
    (Text.byteLength mark.front < Text.byteLength other.front ∨
      Text.byteLength mark.front = Text.byteLength other.front ∧ mark.family.rank ≤ other.family.rank)

end OpenMark

namespace EchoPasses

/-- The marker is written in a piece of markup, and no closing marker of its family comes after it in the
    piece or in markup of a later piece. -/
def StandsOpen (passes : EchoPasses) (pieces : List Piece) (mark : OpenMark) : Prop :=
  ∃ back, pieces[mark.index]? =
      some (.markup (mark.front ++ (passes.markers mark.family).opening ++ back) mark.offset) ∧
    ¬ (passes.markers mark.family).closing <:+: back ∧
    ∀ text offset, .markup text offset ∈ pieces.drop (mark.index + 1) →
      ¬ (passes.markers mark.family).closing <:+: text

/-- The marker stands open, and no other one that does comes before it. -/
def IsFirstOpen (passes : EchoPasses) (pieces : List Piece) (mark : OpenMark) : Prop :=
  passes.StandsOpen pieces mark ∧ ∀ other, passes.StandsOpen pieces other → mark.NotAfter other

/-- The result of a check that fails at the first marker that stands open. -/
def ReportsFirst (passes : EchoPasses) (pieces : List Piece) : Except TranspileError Unit → Prop
  | .ok () => ∀ mark, ¬ passes.StandsOpen pieces mark
  | .error error => ∃ mark, passes.IsFirstOpen pieces mark ∧ error = mark.error

/-- What is found first among some families: the least place, and at that place the first family. -/
def IsEarliest (found : EchoFamily → Option Nat) (families : List EchoFamily) :
    Option (Nat × TagKind) → Prop
  | none => ∀ family ∈ families, found family = none
  | some (place, kind) => ∃ family ∈ families, family.kind = kind ∧ found family = some place ∧
      ∀ other ∈ families, ∀ place' ∈ found other, place < place' ∨ place = place' ∧ family.rank ≤ other.rank

section

variable {passes : EchoPasses} {found : EchoFamily → Option Nat} {done : List EchoFamily} {family : EchoFamily}
  {first : Option (Nat × TagKind)} {pieces : List Piece} {text : Text} {offset : Nat} {mark other : OpenMark}

theorem IsEarliest.earlier (h : IsEarliest found done first) (hrank : ∀ other ∈ done, other.rank ≤ family.rank) :
    IsEarliest found (done ++ [family]) (earlier first (found family) family.kind) := by
  cases hfound : found family with
  | none =>
    cases first with
    | none =>
      simp only [IsEarliest, EchoPasses.earlier, List.forall_mem_append, List.forall_mem_singleton]
      exact ⟨h, hfound⟩
    | some earliest =>
      obtain ⟨best, hbest, hkind, hplace, hleast⟩ := h
      refine ⟨best, List.mem_append_left _ hbest, hkind, hplace, ?_⟩
      simp only [List.forall_mem_append, List.forall_mem_singleton, hfound]
      exact ⟨hleast, by simp⟩
  | some place =>
    have hself : ∀ place' ∈ found family, place < place' ∨ place = place' ∧ family.rank ≤ family.rank := by
      simp [hfound]
    cases first with
    | none =>
      refine ⟨family, by simp, rfl, hfound, ?_⟩
      simp only [List.forall_mem_append, List.forall_mem_singleton]
      refine ⟨?_, hself⟩
      intro other hother
      simp [h other hother]
    | some earliest =>
      obtain ⟨best, hbest, hkind, hplace, hleast⟩ := h
      by_cases hlt : place < earliest.1
      · simp only [EchoPasses.earlier, Option.all_some, decide_eq_true_eq, hlt, if_true]
        refine ⟨family, by simp, rfl, hfound, ?_⟩
        simp only [List.forall_mem_append, List.forall_mem_singleton]
        refine ⟨?_, hself⟩
        intro other hother place' hplace'
        have hle := hleast other hother place' hplace'
        omega
      · simp only [EchoPasses.earlier, Option.all_some, decide_eq_true_eq, hlt, if_false]
        refine ⟨best, List.mem_append_left _ hbest, hkind, hplace, ?_⟩
        simp only [List.forall_mem_append, List.forall_mem_singleton, hfound]
        refine ⟨hleast, ?_⟩
        rintro place' ⟨⟩
        have hbefore := hrank best hbest
        omega

theorem unterminated?_isEarliest (passes : EchoPasses) (t : Text) (later : List (Text × Nat)) :
    IsEarliest (fun family => (passes.markers family).unterminated? t later) families
      (passes.unterminated? t later) := by
  let found := fun family => (passes.markers family).unterminated? t later
  have hnone : IsEarliest found [] none := by simp [IsEarliest]
  have hraw : IsEarliest found [.raw] _ := hnone.earlier (by simp)
  have hescaped : IsEarliest found [.raw, .escaped] _ := hraw.earlier (by decide)
  exact hescaped.earlier (by decide)

/-- Markers of a later piece stand open as they do among the later pieces. -/
theorem standsOpen_later {p : Piece} :
    passes.StandsOpen (p :: pieces) { mark with index := mark.index + 1 } ↔ passes.StandsOpen pieces mark :=
  Iff.rfl

theorem standsOpen_here {p : Piece} {front : Text} :
    passes.StandsOpen (p :: pieces) ⟨0, offset, front, family⟩ ↔
      ∃ text, p = .markup text offset ∧ (∃ back, (passes.markers family).OpenIn text front back) ∧
        ∀ markup ∈ Piece.markups pieces, ¬ (passes.markers family).closing <:+: markup.1 := by
  constructor
  · rintro ⟨back, hpiece, hback, hlater⟩
    refine ⟨_, Option.some.inj hpiece, ⟨back, rfl, hback⟩, ?_⟩
    rintro ⟨text, place⟩ hmarkup
    exact hlater text place (Piece.mem_markups.1 hmarkup)
  · rintro ⟨_, rfl, ⟨back, rfl, hback⟩, hlater⟩
    refine ⟨back, rfl, hback, ?_⟩
    intro text place hpiece
    exact hlater (text, place) (Piece.mem_markups.2 hpiece)

/-- What the check of the later pieces reports is right for all of them if no marker stands open in the
    piece before. -/
theorem ReportsFirst.cons {p : Piece} {result : Except TranspileError Unit}
    (h : passes.ReportsFirst pieces result)
    (hnone : ∀ offset front family, ¬ passes.StandsOpen (p :: pieces) ⟨0, offset, front, family⟩) :
    passes.ReportsFirst (p :: pieces) result := by
  have hlater : ∀ mark, passes.StandsOpen (p :: pieces) mark →
      ∃ before, mark = { before with index := before.index + 1 } ∧ passes.StandsOpen pieces before := by
    rintro ⟨_ | index, offset, front, family⟩ hopen
    · exact absurd hopen (hnone offset front family)
    · exact ⟨⟨index, offset, front, family⟩, rfl, standsOpen_later.1 hopen⟩
  cases result with
  | ok =>
    intro mark hopen
    obtain ⟨before, -, hbefore⟩ := hlater mark hopen
    exact h before hbefore
  | error error =>
    obtain ⟨mark, ⟨hopen, hfirst⟩, rfl⟩ := h
    refine ⟨{ mark with index := mark.index + 1 }, ⟨standsOpen_later.2 hopen, ?_⟩, rfl⟩
    intro other hother
    obtain ⟨before, rfl, hbefore⟩ := hlater other hother
    have hle := hfirst before hbefore
    simp only [OpenMark.NotAfter] at hle ⊢
    omega

/-- Of a marker that stands open in the first piece, the search of its family finds one that is not after
    it. -/
theorem exists_unterminated?_of_standsOpen (hseparate : ∀ family, (passes.markers family).Separate)
    {place : Nat} {front : Text}
    (h : passes.StandsOpen (.markup text offset :: pieces) ⟨0, place, front, family⟩) :
    place = offset ∧ ∃ least, (passes.markers family).unterminated? text (Piece.markups pieces) = some least ∧
      least ≤ Text.byteLength front := by
  obtain ⟨_, hpiece, ⟨back, hopen⟩, hlater⟩ := standsOpen_here.1 h
  cases hpiece
  exact ⟨rfl, hopen.exists_unterminated? (hseparate family) hlater⟩

theorem not_standsOpen_here (hseparate : ∀ family, (passes.markers family).Separate)
    (hnone : passes.unterminated? text (Piece.markups pieces) = none) (place : Nat) (front : Text)
    (family : EchoFamily) : ¬ passes.StandsOpen (.markup text offset :: pieces) ⟨0, place, front, family⟩ := by
  intro hopen
  have hearliest := unterminated?_isEarliest passes text (Piece.markups pieces)
  rw [hnone] at hearliest
  obtain ⟨-, least, hleast, -⟩ := exists_unterminated?_of_standsOpen hseparate hopen
  have hnone := hearliest family (mem_families family)
  simp [hleast] at hnone

/-- What is found in the first piece is the first marker that stands open. -/
theorem reportsFirst_here (hseparate : ∀ family, (passes.markers family).Separate) {place : Nat} {kind : TagKind}
    (hfound : passes.unterminated? text (Piece.markups pieces) = some (place, kind)) :
    passes.ReportsFirst (.markup text offset :: pieces) (.error (.unterminatedTag kind (offset + place))) := by
  have hearliest := unterminated?_isEarliest passes text (Piece.markups pieces)
  rw [hfound] at hearliest
  obtain ⟨family, -, rfl, hplace, hleast⟩ := hearliest
  obtain ⟨hlater, front, back, hopen, rfl⟩ := Markers.openIn_of_unterminated? hplace
  refine ⟨⟨0, offset, front, family⟩, ⟨standsOpen_here.2 ⟨text, rfl, ⟨back, hopen⟩, hlater⟩, ?_⟩, rfl⟩
  rintro ⟨_ | index, place', front', family'⟩ hother
  · obtain ⟨rfl, least, hfound', hle⟩ := exists_unterminated?_of_standsOpen hseparate hother
    have hbefore := hleast family' (mem_families family') least hfound'
    refine .inr ⟨rfl, ?_⟩
    dsimp only
    omega
  · exact .inl (Nat.succ_pos index)

theorem checkTerminated_reportsFirst (hseparate : ∀ family, (passes.markers family).Separate)
    (pieces : List Piece) : passes.ReportsFirst pieces (passes.checkTerminated (Piece.markups pieces)) := by
  induction pieces with
  | nil =>
    rintro mark ⟨back, hpiece, -⟩
    cases hpiece
  | cons p pieces ih =>
    cases p with
    | output text =>
      apply ReportsFirst.cons ih
      intro offset front family hopen
      obtain ⟨_, hpiece, -⟩ := standsOpen_here.1 hopen
      cases hpiece
    | markup text offset =>
      change passes.ReportsFirst _ (passes.checkTerminated ((text, offset) :: Piece.markups pieces))
      unfold checkTerminated
      split
      case _ place kind hfound => exact reportsFirst_here hseparate hfound
      case _ hnone => exact ReportsFirst.cons ih (not_standsOpen_here hseparate hnone)

/-- There is one first marker that stands open, so its error is the only one that can be reported. -/
theorem IsFirstOpen.error_eq (h : passes.IsFirstOpen pieces mark) (hother : passes.IsFirstOpen pieces other) :
    mark.error = other.error := by
  have hle := h.2 other hother.1
  have hge := hother.2 mark h.1
  simp only [OpenMark.NotAfter] at hle hge
  have hindex : mark.index = other.index := by omega
  have hfront : Text.byteLength mark.front = Text.byteLength other.front := by omega
  have hfamily : mark.family = other.family := EchoFamily.eq_of_rank_eq (by omega)
  obtain ⟨⟨_, hpiece, -⟩, -⟩ := h
  obtain ⟨⟨_, hpiece', -⟩, -⟩ := hother
  rw [hindex, hpiece', Option.some.injEq, Piece.markup.injEq] at hpiece
  simp only [OpenMark.error, hfront, hfamily, hpiece.2]

theorem separate_standard (family : EchoFamily) : (standard.markers family).Separate := by
  cases family with
  | raw =>
    -- An opening marker that begins with the only brace of another cannot begin inside it.
    apply Markers.separate_of_opening (c := '\x7b') rfl
    decide
  | escaped =>
    apply Markers.separate_of_closing (c := '\x7d') rfl
    decide
  | regular =>
    apply Markers.separate_of_closing (c := '\x7d') rfl
    decide

/-- The check passes exactly when no marker stands open in the markup, and otherwise it fails at the
    first that does. -/
theorem checkTerminated_standard_iff (pieces : List Piece) :
    (standard.checkTerminated (Piece.markups pieces) = .ok () ↔ ∀ mark, ¬ standard.StandsOpen pieces mark) ∧
      ∀ error, standard.checkTerminated (Piece.markups pieces) = .error error ↔
        ∃ mark, standard.IsFirstOpen pieces mark ∧ error = mark.error := by
  have hreports := checkTerminated_reportsFirst separate_standard pieces
  cases hcheck : standard.checkTerminated (Piece.markups pieces) with
  | ok =>
    rw [hcheck] at hreports
    refine ⟨⟨fun _ => hreports, fun _ => rfl⟩, ?_⟩
    intro error
    constructor
    · rintro ⟨⟩
    · rintro ⟨mark, hfirst, -⟩
      exact absurd hfirst.1 (hreports mark)
  | error found =>
    rw [hcheck] at hreports
    obtain ⟨mark, hfirst, rfl⟩ := hreports
    refine ⟨⟨by rintro ⟨⟩, fun hnone => absurd hfirst.1 (hnone mark)⟩, ?_⟩
    intro error
    constructor
    · rintro ⟨⟩
      exact ⟨mark, hfirst, rfl⟩
    · rintro ⟨other, hother, rfl⟩
      exact congrArg Except.error (hfirst.error_eq hother)

end

end EchoPasses

end Template
