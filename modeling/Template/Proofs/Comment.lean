import Template.Comment
import Template.Proofs.Text

/-! # Closed comments of a text

`splitComments` cuts a text at its closed comments, read from left to right. What
`stripComments` answers is read off this cut: the text between the comments, or the place of
the first opening marker after the last of them.
-/

namespace Template.Markers

/-- A closed comment with the text kept before it. -/
abbrev CommentPart := Text × Text

/-- The closed comments of a text from left to right, each with the text kept before it since
    the last one, and the text after them all. -/
def splitComments (markers : Markers) (t : Text) : List CommentPart × Text :=
  match _hopen : Text.cut? markers.opening t with
  | none => ([], t)
  | some (before, inside) =>
    match _hclose : Text.cut? markers.closing inside with
    | none => ([], t)
    | some (comment, after) =>
      let (parts, last) := splitComments markers after
      ((before, comment) :: parts, last)
termination_by t.length
decreasing_by
  have hlt := Text.length_after_lt markers.opening_ne_nil _hopen
  rw [Text.cut?_eq_some _hclose] at hlt
  simp only [List.length_append] at hlt
  omega

/-- The text that closed comments and the text before each were read from. -/
def withComments (markers : Markers) (parts : List CommentPart) : Text :=
  parts.flatMap fun (kept, comment) => kept ++ markers.opening ++ comment ++ markers.closing

/-- The text before the closed comments, without them. -/
def withoutComments (parts : List CommentPart) : Text := parts.flatMap (·.1)

/-- The text without its closed comments. -/
def keptText (markers : Markers) (t : Text) : Text :=
  withoutComments (markers.splitComments t).1 ++ (markers.splitComments t).2

section

variable {markers : Markers} {t before comment after : Text}

@[simp] theorem withComments_cons (markers : Markers) (kept comment : Text) (parts : List CommentPart) :
    markers.withComments ((kept, comment) :: parts) =
      kept ++ markers.opening ++ comment ++ markers.closing ++ markers.withComments parts := by
  simp [withComments]

@[simp] theorem withComments_nil (markers : Markers) : markers.withComments [] = [] := rfl

@[simp] theorem withoutComments_nil : withoutComments [] = [] := rfl

@[simp] theorem withoutComments_cons (kept comment : Text) (parts : List CommentPart) :
    withoutComments ((kept, comment) :: parts) = kept ++ withoutComments parts := by
  simp [withoutComments]

theorem withComments_splitComments (markers : Markers) (t : Text) :
    markers.withComments (markers.splitComments t).1 ++ (markers.splitComments t).2 = t := by
  fun_induction splitComments markers t with
  | case1 | case2 => rfl
  | case3 t before inside hopen comment after hclose parts last hsplit ih =>
    rw [Text.cut?_eq_some hopen, Text.cut?_eq_some hclose]
    simp only [hsplit] at ih
    simp only [withComments_cons, List.append_assoc, ih]

/-- No closed comment is left in the text after the last one. -/
theorem cut?_closing_after_splitComments {inside : Text}
    (h : Text.cut? markers.opening (markers.splitComments t).2 = some (before, inside)) :
    Text.cut? markers.closing inside = none := by
  fun_induction splitComments markers t with
  | case1 t hopen =>
    rw [hopen] at h
    cases h
  | case2 t before' inside' hopen hclose =>
    rw [hopen] at h
    cases h
    exact hclose
  | case3 t before' inside' hopen comment after hclose parts last hsplit ih =>
    simp only [hsplit] at ih
    exact ih h

theorem stripComments_of_cut?_eq_none {offset : Nat} (hopen : Text.cut? markers.opening t = none) :
    markers.stripComments offset t = .ok t := by
  rw [stripComments.eq_def]
  split
  · rfl
  · simp_all

theorem stripComments_of_unclosed {offset : Nat} {inside : Text}
    (hopen : Text.cut? markers.opening t = some (before, inside))
    (hclose : Text.cut? markers.closing inside = none) :
    markers.stripComments offset t =
      .error (.unterminatedTag .comment (offset + Text.byteLength before)) := by
  rw [stripComments.eq_def]
  split
  · simp_all
  case _ b i hopen' =>
    rw [hopen] at hopen'
    cases hopen'
    split
    · rfl
    · simp_all

theorem stripComments_of_closed {offset : Nat} {inside : Text}
    (hopen : Text.cut? markers.opening t = some (before, inside))
    (hclose : Text.cut? markers.closing inside = some (comment, after)) :
    markers.stripComments offset t =
      (before ++ ·) <$> markers.stripComments (offset + Text.byteLength before +
        Text.byteLength markers.opening + Text.byteLength comment +
        Text.byteLength markers.closing) after := by
  rw [stripComments.eq_def]
  split
  · simp_all
  case _ b i hopen' =>
    rw [hopen] at hopen'
    cases hopen'
    split
    · simp_all
    case _ c a hclose' =>
      rw [hclose] at hclose'
      cases hclose'
      rfl

theorem stripComments_eq (markers : Markers) (offset : Nat) (t : Text) :
    markers.stripComments offset t =
      match Text.cut? markers.opening (markers.splitComments t).2 with
      | none => .ok (markers.keptText t)
      | some (before, _) => .error (.unterminatedTag .comment
          (offset + Text.byteLength (markers.withComments (markers.splitComments t).1 ++ before))) := by
  unfold keptText
  fun_induction splitComments markers t generalizing offset with
  | case1 t hopen =>
    rw [stripComments_of_cut?_eq_none hopen, hopen]
    rfl
  | case2 t before inside hopen hclose =>
    rw [stripComments_of_unclosed hopen hclose, hopen]
    rfl
  | case3 t before inside hopen comment after hclose parts last hsplit ih =>
    simp only [hsplit] at ih
    rw [stripComments_of_closed hopen hclose, ih]
    cases Text.cut? markers.opening last with
    | none => simp only [withoutComments_cons, List.append_assoc]; rfl
    | some found =>
      simp only [withComments_cons, Text.byteLength_append, Nat.add_assoc]
      rfl

/-- A text without an opening marker is its own comment-free text. -/
theorem stripComments_of_not_infix {offset : Nat} (h : ¬ markers.opening <:+: t) :
    markers.stripComments offset t = .ok t :=
  stripComments_of_cut?_eq_none (Text.cut?_eq_none_iff.2 h)

theorem stripComments_comment (offset : Nat)
    (hbefore : Text.Avoids (markers.opening <+: ·) before
      (markers.opening ++ (comment ++ (markers.closing ++ after))))
    (hcomment : Text.Avoids (markers.closing <+: ·) comment (markers.closing ++ after)) :
    ∃ next, markers.stripComments offset
        (before ++ (markers.opening ++ (comment ++ (markers.closing ++ after)))) =
      (before ++ ·) <$> markers.stripComments next after :=
  ⟨_, stripComments_of_closed (Text.cut?_of_avoids hbefore) (Text.cut?_of_avoids hcomment)⟩

end

section

variable {markers : Markers} {parts : List CommentPart} {last before mark after : Text}

/-- Number of bytes of the closed comments that stand before byte position `n` of the text
    without them. -/
def droppedBefore (markers : Markers) : List CommentPart → (n : Nat) → Nat
  | [], _ => 0
  | (kept, comment) :: parts, n =>
    if n < Text.byteLength kept then 0
    else Text.byteLength (markers.opening ++ comment ++ markers.closing) +
      droppedBefore markers parts (n - Text.byteLength kept)

/-- Whether byte position `n` of the text lies inside one of its closed comments. -/
def insideComment (markers : Markers) : List CommentPart → (n : Nat) → Bool
  | [], _ => false
  | (kept, comment) :: parts, n =>
    let next := Text.byteLength (kept ++ markers.opening ++ comment ++ markers.closing)
    if n < Text.byteLength kept then false
    else if n < next then true
    else insideComment markers parts (n - next)

theorem droppedBefore_mono {n m : Nat} (h : n ≤ m) :
    markers.droppedBefore parts n ≤ markers.droppedBefore parts m := by
  induction parts generalizing n m with
  | nil => exact Nat.le_refl 0
  | cons part parts ih =>
    obtain ⟨kept, comment⟩ := part
    by_cases hn : n < Text.byteLength kept
    · rw [droppedBefore, if_pos hn]
      exact Nat.zero_le _
    · rw [droppedBefore, droppedBefore, if_neg hn, if_neg (by omega)]
      exact Nat.add_le_add_left (ih (by omega)) _

theorem droppedBefore_cons_append (kept comment s : Text) :
    markers.droppedBefore ((kept, comment) :: parts) (Text.byteLength (kept ++ s)) =
      Text.byteLength (markers.opening ++ comment ++ markers.closing) +
        markers.droppedBefore parts (Text.byteLength s) := by
  have hnot : ¬ Text.byteLength kept + Text.byteLength s < Text.byteLength kept := by omega
  rw [Text.byteLength_append kept s, droppedBefore, if_neg hnot, Nat.add_sub_cancel_left]

theorem insideComment_cons_append (kept comment s : Text) :
    markers.insideComment ((kept, comment) :: parts)
        (Text.byteLength (kept ++ markers.opening ++ comment ++ markers.closing ++ s)) =
      markers.insideComment parts (Text.byteLength s) := by
  rw [Text.byteLength_append _ s, insideComment, if_neg, if_neg, Nat.add_sub_cancel_left]
  · omega
  · simp only [Text.byteLength_append]
    omega

theorem insideComment_withComments_append (parts : List CommentPart) (s : Text) :
    markers.insideComment parts (Text.byteLength (markers.withComments parts ++ s)) = false := by
  induction parts with
  | nil => rfl
  | cons part parts ih =>
    obtain ⟨kept, comment⟩ := part
    rw [withComments_cons, List.append_assoc, insideComment_cons_append, ih]

/-- A mark of the comment-free text that no comment breaks up stands in the text itself, as
    many bytes further on as comments were dropped before it. -/
theorem exists_place_of_withoutComments (hmark : mark ≠ [])
    (h : withoutComments parts ++ last = before ++ mark ++ after)
    (hwhole : markers.droppedBefore parts (Text.byteLength (before ++ mark.dropLast)) =
      markers.droppedBefore parts (Text.byteLength before)) :
    ∃ front back, markers.withComments parts ++ last = front ++ mark ++ back ∧
      Text.byteLength front =
        Text.byteLength before + markers.droppedBefore parts (Text.byteLength before) ∧
      markers.insideComment parts (Text.byteLength front) = false := by
  induction parts generalizing before with
  | nil => exact ⟨before, after, h, by simp [droppedBefore], rfl⟩
  | cons part parts ih =>
    obtain ⟨kept, comment⟩ := part
    rw [withoutComments_cons, List.append_assoc, List.append_assoc] at h
    have hpos := Text.byteLength_pos markers.opening_ne_nil
    by_cases hbefore : Text.byteLength before < Text.byteLength kept
    case pos =>
      -- The mark starts before the first comment, so it ends there too.
      have hlast : Text.byteLength (before ++ mark.dropLast) < Text.byteLength kept := by
        apply Classical.byContradiction
        intro hlast
        rw [droppedBefore, droppedBefore, if_pos hbefore, if_neg hlast] at hwhole
        simp only [Text.byteLength_append] at hwhole
        omega
      have hmarked : before ++ (mark ++ after) =
          before ++ mark.dropLast ++ (mark.getLast hmark :: after) := by
        conv => lhs; rw [← List.dropLast_concat_getLast hmark]
        simp only [List.append_assoc, List.cons_append, List.nil_append]
      rw [hmarked] at h
      obtain ⟨more, hkept, hmore⟩ := Text.exists_append_of_byteLength_le h.symm (Nat.le_of_lt hlast)
      cases more with
      | nil =>
        rw [List.append_nil] at hkept
        exact absurd hlast (by rw [hkept]; exact Nat.lt_irrefl _)
      | cons c more =>
        rw [List.cons_append, List.cons.injEq] at hmore
        have hsplit : kept = before ++ mark ++ more := by
          rw [hkept, ← hmore.1]
          conv => rhs; rw [← List.dropLast_concat_getLast hmark]
          simp only [List.append_assoc, List.cons_append, List.nil_append]
        refine ⟨before, more ++ markers.opening ++ comment ++ markers.closing ++
          (markers.withComments parts ++ last), ?_, ?_, ?_⟩
        · simp only [hsplit, withComments_cons, List.append_assoc]
        · rw [droppedBefore, if_pos hbefore, Nat.add_zero]
        · simp only [insideComment, hbefore, if_true]
    case neg =>
      obtain ⟨more, rfl, hrest⟩ := Text.exists_append_of_byteLength_le h (Nat.le_of_not_lt hbefore)
      rw [List.append_assoc, droppedBefore_cons_append, droppedBefore_cons_append,
        Nat.add_left_cancel_iff] at hwhole
      rw [← List.append_assoc] at hrest
      obtain ⟨front, back, htext, hlength, hinside⟩ := ih hrest hwhole
      refine ⟨kept ++ markers.opening ++ comment ++ markers.closing ++ front, back, ?_, ?_, ?_⟩
      · rw [withComments_cons, List.append_assoc, htext]
        simp only [List.append_assoc]
      · rw [droppedBefore_cons_append]
        simp only [Text.byteLength_append, hlength]
        omega
      · rw [insideComment_cons_append, hinside]

end

end Template.Markers
