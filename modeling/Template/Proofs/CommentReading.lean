import Template.Proofs.Comment

/-! # Reading comments

What the comments of a text are is said here without a search. A comment begins with the first opening
marker after the comment before it, and ends with the first closing marker after that. A text has one
such reading, and stripping deletes exactly its comments. It fails when an opening marker outside the
comments is never closed, at the first such marker.
-/

namespace Template

namespace Text

/-- The mark stands in the text between `before` and `after`, and nowhere before that. -/
def IsFirst (mark t before after : Text) : Prop :=
  t = before ++ mark ++ after ∧
    ∀ front back, t = front ++ mark ++ back → byteLength before ≤ byteLength front

section

variable {mark t before after : Text}

theorem isFirst_of_cut? (h : cut? mark t = some (before, after)) : IsFirst mark t before after := by
  refine ⟨cut?_eq_some h, ?_⟩
  intro front back ht
  apply Nat.le_of_not_lt
  intro hlt
  have hwhole : front ++ (mark ++ back) = before ++ (mark ++ after) := by
    simp only [← List.append_assoc, ← ht, ← cut?_eq_some h]
  obtain ⟨more, rfl, hmore⟩ := exists_append_of_byteLength_le hwhole (Nat.le_of_lt hlt)
  have hne : more ≠ [] := by
    rintro rfl
    simp at hlt
  exact avoids_iff.1 (avoids_of_cut?_eq_some h) front more rfl hne ⟨back, hmore⟩

/-- The search for a mark finds its first place. -/
theorem cut?_eq_some_iff : cut? mark t = some (before, after) ↔ IsFirst mark t before after := by
  constructor
  · exact isFirst_of_cut?
  · intro h
    cases hcut : cut? mark t with
    | none => exact absurd ⟨before, after, h.1.symm⟩ (cut?_eq_none_iff.1 hcut)
    | some found =>
      obtain ⟨front, back⟩ := found
      have hfirst := isFirst_of_cut? hcut
      have hlength : byteLength front = byteLength before :=
        Nat.le_antisymm (hfirst.2 before after h.1) (h.2 front back hfirst.1)
      have hwhole : front ++ (mark ++ back) = before ++ (mark ++ after) := by
        simp only [← List.append_assoc, ← h.1, ← hfirst.1]
      obtain ⟨rfl, hrest⟩ := append_inj_of_byteLength_eq hwhole hlength
      rw [List.append_cancel_left hrest]

end

end Text

namespace Markers

/-- The closed comments of a text with the text kept before each, and the text after them all. -/
inductive ReadsComments (markers : Markers) : Text → List CommentPart → (last : Text) → Prop where
  | comment {t kept inside comment after last : Text} {parts : List CommentPart}
      (hopens : Text.IsFirst markers.opening t kept inside)
      (hcloses : Text.IsFirst markers.closing inside comment after)
      (hmore : ReadsComments markers after parts last) :
      ReadsComments markers t ((kept, comment) :: parts) last
  /-- No comment begins, or the one that begins is never closed. -/
  | last {t : Text}
      (hnone : ∀ kept inside, Text.IsFirst markers.opening t kept inside → ¬ markers.closing <:+: inside) :
      ReadsComments markers t [] t

/-- Between `front` and `back` an opening marker begins in none of the closed comments, and no closing
    marker comes after it. -/
structure Unclosed (markers : Markers) (parts : List CommentPart) (t front back : Text) : Prop where
  opens : t = front ++ markers.opening ++ back
  outside : markers.insideComment parts (Text.byteLength front) = false
  notClosed : ¬ markers.closing <:+: back

section

variable {markers : Markers} {t kept inside last front back : Text} {parts : List CommentPart}

theorem ReadsComments.splitComments_eq (h : markers.ReadsComments t parts last) :
    markers.splitComments t = (parts, last) := by
  induction h with
  | @comment t kept inside comment after last parts hopens hcloses _ ih =>
    have hopen := Text.cut?_eq_some_iff.2 hopens
    have hclose := Text.cut?_eq_some_iff.2 hcloses
    unfold splitComments
    split
    · simp_all
    · split <;> simp_all
  | @last t hnone =>
    unfold splitComments
    split
    case _ => rfl
    case _ kept inside hopen =>
      have hclose : Text.cut? markers.closing inside = none :=
        Text.cut?_eq_none_iff.2 (hnone _ _ (Text.cut?_eq_some_iff.1 hopen))
      split <;> simp_all

theorem readsComments_splitComments (markers : Markers) (t : Text) :
    markers.ReadsComments t (markers.splitComments t).1 (markers.splitComments t).2 := by
  fun_induction splitComments markers t with
  | case1 t hopen =>
    apply ReadsComments.last
    intro kept inside hfirst
    rw [← Text.cut?_eq_some_iff, hopen] at hfirst
    cases hfirst
  | case2 t before inside hopen hclose =>
    apply ReadsComments.last
    intro kept inside' hfirst
    rw [← Text.cut?_eq_some_iff, hopen] at hfirst
    cases hfirst
    exact Text.cut?_eq_none_iff.1 hclose
  | case3 t before inside hopen comment after hclose parts last hsplit ih =>
    rw [hsplit] at ih
    exact .comment (Text.cut?_eq_some_iff.1 hopen) (Text.cut?_eq_some_iff.1 hclose) ih

/-- A text has one reading, and it is the one that is computed. -/
theorem readsComments_iff :
    markers.ReadsComments t parts last ↔ markers.splitComments t = (parts, last) := by
  constructor
  · exact ReadsComments.splitComments_eq
  · intro h
    have hreads := readsComments_splitComments markers t
    rwa [h] at hreads

/-- No opening marker is left in a text that is kept before a comment. -/
theorem ReadsComments.not_infix_kept (h : markers.ReadsComments t parts last) :
    ∀ part ∈ parts, ¬ markers.opening <:+: part.1 := by
  induction h with
  | last => simp
  | @comment t kept inside comment after last parts hopens hcloses _ ih =>
    simp only [List.forall_mem_cons]
    refine ⟨?_, ih⟩
    rintro ⟨front, back, rfl⟩
    have hpos := Text.byteLength_pos markers.opening_ne_nil
    have hle := hopens.2 front (back ++ markers.opening ++ inside) (by rw [hopens.1]; simp)
    simp only [Text.byteLength_append] at hle
    omega

/-- An opening marker that begins in no closed comment begins after them all. -/
theorem ReadsComments.exists_of_outside (h : markers.ReadsComments t parts last)
    (hopens : t = front ++ markers.opening ++ back)
    (houtside : markers.insideComment parts (Text.byteLength front) = false) :
    ∃ more, front = markers.withComments parts ++ more ∧ last = more ++ markers.opening ++ back := by
  induction h generalizing front with
  | last => exact ⟨front, rfl, hopens⟩
  | @comment t kept inside comment after last parts hfirst hcloses _ ih =>
    have hkept := hfirst.2 front back hopens
    have hwhole : kept ++ markers.opening ++ comment ++ markers.closing ++ after =
        front ++ (markers.opening ++ back) := by
      rw [← List.append_assoc, ← hopens, hfirst.1, hcloses.1]
      simp only [List.append_assoc]
    have hafter : Text.byteLength (kept ++ markers.opening ++ comment ++ markers.closing) ≤
        Text.byteLength front := by
      apply Nat.le_of_not_lt
      intro hlt
      simp only [insideComment, if_neg (Nat.not_lt.2 hkept), if_pos hlt] at houtside
      cases houtside
    obtain ⟨more, rfl, hmore⟩ := Text.exists_append_of_byteLength_le hwhole hafter
    rw [insideComment_cons_append] at houtside
    rw [← List.append_assoc] at hmore
    obtain ⟨rest, rfl, hlast⟩ := ih hmore houtside
    exact ⟨rest, by simp, hlast⟩

/-- The first opening marker in the text after the comments is unclosed. -/
theorem ReadsComments.unclosed (h : markers.ReadsComments t parts last)
    (hfirst : Text.IsFirst markers.opening last kept inside) :
    markers.Unclosed parts t (markers.withComments parts ++ kept) inside := by
  have hsplit := h.splitComments_eq
  have hwhole := withComments_splitComments markers t
  have hnone := @cut?_closing_after_splitComments markers t kept inside
  rw [hsplit] at hwhole hnone
  refine ⟨?_, insideComment_withComments_append parts kept, ?_⟩
  · rw [← hwhole, hfirst.1]
    simp only [List.append_assoc]
  · exact Text.cut?_eq_none_iff.1 (hnone (Text.cut?_eq_some_iff.2 hfirst))

theorem ReadsComments.le_of_unclosed (h : markers.ReadsComments t parts last)
    (hfirst : Text.IsFirst markers.opening last kept inside) (hunclosed : markers.Unclosed parts t front back) :
    Text.byteLength (markers.withComments parts ++ kept) ≤ Text.byteLength front := by
  obtain ⟨more, rfl, hlast⟩ := h.exists_of_outside hunclosed.opens hunclosed.outside
  have hle := hfirst.2 more back hlast
  simp only [Text.byteLength_append]
  omega

theorem ReadsComments.stripComments_eq (h : markers.ReadsComments t parts last) (offset : Nat) :
    markers.stripComments offset t =
      match Text.cut? markers.opening last with
      | none => .ok (withoutComments parts ++ last)
      | some (before, _) => .error (.unterminatedTag .comment
          (offset + Text.byteLength (markers.withComments parts ++ before))) := by
  have hread := Markers.stripComments_eq markers offset t
  rw [keptText, h.splitComments_eq] at hread
  exact hread

theorem ReadsComments.strips (h : markers.ReadsComments t parts last)
    (hclosed : ∀ front back, ¬ markers.Unclosed parts t front back) (offset : Nat) :
    markers.stripComments offset t = .ok (withoutComments parts ++ last) ∧ ¬ markers.opening <:+: last := by
  cases hcut : Text.cut? markers.opening last with
  | none => exact ⟨by rw [h.stripComments_eq, hcut], Text.cut?_eq_none_iff.1 hcut⟩
  | some found => exact absurd (h.unclosed (Text.cut?_eq_some_iff.1 hcut)) (hclosed _ _)

theorem ReadsComments.fails (h : markers.ReadsComments t parts last)
    (hunclosed : markers.Unclosed parts t front back)
    (hfirst : ∀ front' back', markers.Unclosed parts t front' back' →
      Text.byteLength front ≤ Text.byteLength front') (offset : Nat) :
    markers.stripComments offset t =
      .error (.unterminatedTag .comment (offset + Text.byteLength front)) := by
  cases hcut : Text.cut? markers.opening last with
  | none =>
    obtain ⟨more, -, hlast⟩ := h.exists_of_outside hunclosed.opens hunclosed.outside
    exact absurd ⟨more, back, hlast.symm⟩ (Text.cut?_eq_none_iff.1 hcut)
  | some found =>
    obtain ⟨kept, inside⟩ := found
    have hcut' := Text.cut?_eq_some_iff.1 hcut
    have hsame := Nat.le_antisymm (hfirst _ _ (h.unclosed hcut')) (h.le_of_unclosed hcut' hunclosed)
    simp only [h.stripComments_eq, hcut, hsame]

end

theorem exists_markers_of_not_isBlank {pair : TagPair} (hpair : pair.isBlank = false) :
    ∃ markers : Markers, markers.pair = pair ∧
      ∀ limit : Limit, limit .comment pair = true → build limit .comment pair = .ok markers := by
  have hopening : pair.opening ≠ [] := by
    intro hnil
    simp [TagPair.isBlank, Text.isAllBlank, hnil] at hpair
  refine ⟨⟨pair.opening, pair.closing, hopening⟩, rfl, ?_⟩
  intro limit hlimit
  simp [build, hopening, hlimit]

/-- Stripping deletes exactly the comments of a text, of which there is one reading, and leaves no
    opening marker in what it keeps. It fails at the first opening marker outside the comments that is
    never closed, if there is one. -/
theorem stripComments_exact {pair : TagPair} (hpair : pair.isBlank = false) :
    ∃ markers : Markers, markers.pair = pair ∧
      (∀ limit : Limit, limit .comment pair = true → build limit .comment pair = .ok markers) ∧
      ∀ t, ∃ parts last,
        (∀ parts' last', markers.ReadsComments t parts' last' ↔ parts' = parts ∧ last' = last) ∧
        markers.withComments parts ++ last = t ∧
        (∀ part ∈ parts, ¬ markers.opening <:+: part.1) ∧
        ∀ offset,
          ((∀ front back, ¬ markers.Unclosed parts t front back) →
            markers.stripComments offset t = .ok (withoutComments parts ++ last) ∧
              ¬ markers.opening <:+: last) ∧
          ∀ front back, markers.Unclosed parts t front back →
            (∀ front' back', markers.Unclosed parts t front' back' →
              Text.byteLength front ≤ Text.byteLength front') →
            markers.stripComments offset t =
              .error (.unterminatedTag .comment (offset + Text.byteLength front)) := by
  obtain ⟨markers, hmarkers, hbuild⟩ := exists_markers_of_not_isBlank hpair
  refine ⟨markers, hmarkers, hbuild, ?_⟩
  intro t
  have hreads := readsComments_splitComments markers t
  refine ⟨_, _, ?_, withComments_splitComments markers t, hreads.not_infix_kept, ?_⟩
  · intro parts' last'
    rw [readsComments_iff, ← Prod.mk.injEq]
    exact eq_comm
  · intro offset
    exact ⟨fun hclosed => hreads.strips hclosed offset,
      fun front back hunclosed hfirst => hreads.fails hunclosed hfirst offset⟩

/-- Comment markers of which the closing one is a part of the opening one. -/
def hashMarkers : Markers := ⟨"##".toList, "#".toList, by decide⟩

/-- Two closed comments, the second without an inside, and an opening marker that is never closed. -/
def hashComments : Text := "a##b#c###d##".toList

theorem stripComments_exact_hashComments :
    hashMarkers.pair.isBlank = false ∧
      hashMarkers.ReadsComments hashComments [("a".toList, "b".toList), ("c".toList, [])] "d##".toList ∧
      ∀ offset, hashMarkers.stripComments offset hashComments =
        .error (.unterminatedTag .comment (offset + 10)) := by
  have hpair : hashMarkers.pair.isBlank = false := by decide
  obtain ⟨markers, hmarkers, -, hread⟩ := stripComments_exact hpair
  obtain rfl : markers = hashMarkers := by
    cases markers
    cases hmarkers
    rfl
  obtain ⟨parts, last, hone, -, -, hstrip⟩ := hread hashComments
  have hreads : hashMarkers.ReadsComments hashComments [("a".toList, "b".toList), ("c".toList, [])]
      "d##".toList := readsComments_iff.2 (by decide +kernel)
  obtain ⟨rfl, rfl⟩ := (hone _ _).1 hreads
  refine ⟨hpair, hreads, ?_⟩
  intro offset
  apply (hstrip offset).2 "a##b#c###d".toList [] ⟨by decide, by decide, by decide⟩
  intro front back hunclosed
  have hfirst : Text.IsFirst hashMarkers.opening "d##".toList "d".toList [] :=
    Text.cut?_eq_some_iff.1 (by decide)
  exact hreads.le_of_unclosed hfirst hunclosed

end Markers

end Template
