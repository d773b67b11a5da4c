import Template.Proofs.EchoPass
import Template.Proofs.Run

/-! # Places of markup

While markup is rewritten, what is still markup keeps its place: every such piece stands in
the text that was given to the pass, where its offset says. The errors of the passes are
places of marks in such pieces.
-/

namespace Template

namespace Piece

/-- A piece of markup stands in `whole`, which begins at byte position `offset`, at its place. -/
def StandsIn (whole : Text) (offset : Nat) : Piece → Prop
  | .markup text place =>
    ∃ front back, whole = front ++ text ++ back ∧ place = offset + Text.byteLength front
  | .output _ => True

section

variable {whole text front back : Text} {offset place : Nat} {p : Piece}

theorem standsIn_self : StandsIn text place (.markup text place) :=
  ⟨[], [], by simp, rfl⟩

theorem StandsIn.trans (h : StandsIn whole offset (.markup text place)) (hp : StandsIn text place p) :
    StandsIn whole offset p := by
  cases p with
  | output => trivial
  | markup t o =>
    obtain ⟨front, back, rfl, rfl⟩ := h
    obtain ⟨front', back', rfl, rfl⟩ := hp
    refine ⟨front ++ front', back' ++ back, by simp only [List.append_assoc], ?_⟩
    rw [Text.byteLength_append]
    omega

theorem StandsIn.append_left (front : Text)
    (h : StandsIn whole (offset + Text.byteLength front) p) : StandsIn (front ++ whole) offset p :=
  StandsIn.trans ⟨front, [], by simp, rfl⟩ h

theorem StandsIn.append_right (back : Text) (h : StandsIn whole offset p) :
    StandsIn (whole ++ back) offset p :=
  StandsIn.trans ⟨[], back, by simp, by simp⟩ h

theorem standsIn_of_mem_ofMarkup (h : p ∈ ofMarkup text place) : StandsIn text place p :=
  eq_of_mem_ofMarkup h ▸ standsIn_self

end

end Piece

namespace DirectiveTag

@[simp] theorem unsplit_cons (before : Text) (tag : DirectiveTag) (parts : List (Text × DirectiveTag))
    (last : Text) : unsplit ((before, tag) :: parts) last = before ++ tag.source ++ unsplit parts last := by
  simp [unsplit]

@[simp] theorem unsplit_nil (last : Text) : unsplit [] last = last := rfl

end DirectiveTag

namespace Registry

/-- No directive of the registry reports an unterminated tag. -/
def ReportsNoTag (registry : Registry) (answers : Answers) : Prop :=
  ∀ name handler, registry.find? name = some handler → ∀ argument context kind place after,
    (handler argument).run answers registry.names context ≠ (.error (.unterminatedTag kind place), after)

section

variable {registry : Registry} {answers : Answers} {start offset place : Nat} {tag : DirectiveTag}
  {context after : Context} {pieces : List Piece} {kind : TagKind}

/-- The directive that is carried out for a tag, if one is. -/
def handler? (registry : Registry) (tag : DirectiveTag) : Option Handler :=
  if tag.escaped then none else registry.find? tag.name

theorem handler?_eq_some {handler : Handler} (h : registry.handler? tag = some handler) :
    tag.escaped = false ∧ registry.find? tag.name = some handler := by
  unfold handler? at h
  split at h
  · cases h
  case _ hescaped => exact ⟨Bool.eq_false_iff.2 hescaped, h⟩

theorem carryOutTag_of_none (h : registry.handler? tag = none) :
    registry.carryOutTag answers start tag =
      pure (Piece.ofMarkup tag.unescaped
        (if tag.escaped then start + escapeMarker.utf8Size else start)) := by
  unfold carryOutTag
  unfold handler? at h
  rw [h]

theorem carryOutTag_of_unclosed {handler : Handler} (h : registry.handler? tag = some handler)
    (hargument : tag.argument = .unclosed) :
    registry.carryOutTag answers start tag = throw (.unterminatedTag .directive start) := by
  unfold carryOutTag
  unfold handler? at h
  rw [h]
  simp only [hargument]

/-- The text that stands behind the output of a directive. -/
theorem carryOutTag_of_closed {handler : Handler} (answers : Answers) (start : Nat)
    (h : registry.handler? tag = some handler)
    (hargument : tag.argument ≠ .unclosed) :
    ∃ more, registry.carryOutTag answers start tag = (do
      let output ← (handler tag.argument.text?).run answers registry.names
      pure [.output (output ++ more)]) := by
  unfold carryOutTag
  unfold handler? at h
  rw [h]
  cases hcase : tag.argument with
  | unclosed => exact absurd hcase hargument
  | given text =>
    refine ⟨[], ?_⟩
    simp only [List.append_nil]
    rfl
  | absent => exact ⟨tag.spacing, rfl⟩

theorem standsIn_of_carryOutTag
    (h : registry.carryOutTag answers start tag context = (.ok pieces, after)) :
    ∀ p ∈ pieces, p.StandsIn tag.source start := by
  intro p hp
  cases hhandler : registry.handler? tag with
  | none =>
    rw [carryOutTag_of_none hhandler] at h
    cases h
    have hstands := Piece.standsIn_of_mem_ofMarkup hp
    unfold DirectiveTag.source
    cases hescaped : tag.escaped with
    | false =>
      simp only [hescaped, Bool.false_eq_true, if_false] at hstands
      simpa using hstands
    | true =>
      simp only [hescaped, if_true] at hstands
      exact Piece.StandsIn.append_left [escapeMarker] (by simpa using hstands)
  | some handler =>
    by_cases hargument : tag.argument = .unclosed
    · rw [carryOutTag_of_unclosed hhandler hargument] at h
      cases h
    · obtain ⟨more, hrun⟩ := carryOutTag_of_closed answers start hhandler hargument
      rw [hrun, Run.bind_apply] at h
      split at h
      · cases h
      · cases h
        rw [List.mem_singleton] at hp
        exact hp ▸ trivial

/-- A directive is reported where its introducer stands, before an argument without end. -/
theorem carryOutTag_eq_unterminated (hreports : registry.ReportsNoTag answers)
    (h : registry.carryOutTag answers start tag context = (.error (.unterminatedTag kind place), after)) :
    kind = .directive ∧ place = start ∧ directiveIntroducer <+: tag.source := by
  cases hhandler : registry.handler? tag with
  | none =>
    rw [carryOutTag_of_none hhandler] at h
    cases h
  | some handler =>
    by_cases hargument : tag.argument = .unclosed
    · rw [carryOutTag_of_unclosed hhandler hargument] at h
      cases h
      refine ⟨rfl, rfl, ?_⟩
      rw [DirectiveTag.source, (handler?_eq_some hhandler).1]
      simp only [Bool.false_eq_true, if_false, List.nil_append, DirectiveTag.unescaped,
        List.append_assoc]
      exact List.prefix_append _ _
    · obtain ⟨more, hrun⟩ := carryOutTag_of_closed answers start hhandler hargument
      rw [hrun] at h
      rcases Run.bind_eq_error h with hcall | ⟨_, _, _, hdone⟩
      · exact absurd hcall (hreports _ _ (handler?_eq_some hhandler).2 _ _ _ _ _)
      · cases hdone

theorem standsIn_of_carryOut {parts : List (Text × DirectiveTag)} {last : Text}
    (h : registry.carryOut answers offset parts last context = (.ok pieces, after)) :
    ∀ p ∈ pieces, p.StandsIn (DirectiveTag.unsplit parts last) offset := by
  induction parts generalizing offset context pieces with
  | nil =>
    cases h
    intro p hp
    exact Piece.standsIn_of_mem_ofMarkup hp
  | cons part parts ih =>
    obtain ⟨before, tag⟩ := part
    rw [carryOut, Run.bind_apply] at h
    split at h
    · cases h
    case _ here between hhere =>
      rw [Run.bind_apply] at h
      split at h
      · cases h
      case _ later _ hlater =>
        cases h
        intro p hp
        rw [DirectiveTag.unsplit_cons, List.append_assoc]
        rcases List.mem_append.1 hp with hp | hp
        · rcases List.mem_append.1 hp with hp | hp
          · exact (Piece.standsIn_of_mem_ofMarkup hp).append_right _
          · exact ((standsIn_of_carryOutTag hhere p hp).append_right _).append_left before
        · refine Piece.StandsIn.append_left before (Piece.StandsIn.append_left tag.source ?_)
          exact ih hlater p hp

theorem carryOut_eq_unterminated {parts : List (Text × DirectiveTag)} {last : Text}
    (hreports : registry.ReportsNoTag answers)
    (h : registry.carryOut answers offset parts last context =
      (.error (.unterminatedTag kind place), after)) :
    kind = .directive ∧ ∃ front back,
      DirectiveTag.unsplit parts last = front ++ directiveIntroducer ++ back ∧
        place = offset + Text.byteLength front := by
  induction parts generalizing offset context with
  | nil => cases h
  | cons part parts ih =>
    obtain ⟨before, tag⟩ := part
    rcases Run.bind_eq_error h with hhere | ⟨_, _, _, h⟩
    · obtain ⟨rfl, rfl, rest, hrest⟩ := carryOutTag_eq_unterminated hreports hhere
      refine ⟨rfl, before, rest ++ DirectiveTag.unsplit parts last, ?_, rfl⟩
      rw [DirectiveTag.unsplit_cons, ← hrest]
      simp only [List.append_assoc]
    · rcases Run.bind_eq_error h with hlater | ⟨_, _, _, hdone⟩
      · obtain ⟨rfl, front, back, heq, rfl⟩ := ih hlater
        refine ⟨rfl, before ++ tag.source ++ front, back, ?_, ?_⟩
        · rw [DirectiveTag.unsplit_cons, heq]
          simp only [List.append_assoc]
        · simp only [Text.byteLength_append]
          omega
      · cases hdone

end

end Registry

namespace EchoPasses

section

variable {passes : EchoPasses} {family : EchoFamily} {offset place : Nat} {kind : TagKind}
  {whole t : Text} {pieces : List Piece}

theorem standsIn_rewriteTag (tag : EchoTag) :
    (passes.rewriteTag family offset tag).StandsIn (tag.source (passes.markers family)) offset := by
  unfold rewriteTag
  split
  · cases family with
    | raw | regular => trivial
    | escaped => exact Piece.standsIn_self
  · trivial

theorem standsIn_of_rewriteTags {parts : List (Text × EchoTag)} {last : Text} :
    ∀ p ∈ passes.rewriteTags family offset parts last,
      p.StandsIn ((passes.markers family).unsplitTags parts last) offset := by
  induction parts generalizing offset with
  | nil =>
    intro p hp
    exact Piece.standsIn_of_mem_ofMarkup hp
  | cons part parts ih =>
    obtain ⟨before, tag⟩ := part
    intro p hp
    have hunsplit : (passes.markers family).unsplitTags ((before, tag) :: parts) last =
        before ++ (tag.source (passes.markers family) ++ (passes.markers family).unsplitTags parts last) := by
      simp [Markers.unsplitTags]
    rw [hunsplit]
    rcases List.mem_append.1 hp with hp | hp
    · exact (Piece.standsIn_of_mem_ofMarkup hp).append_right _
    · apply Piece.StandsIn.append_left
      rcases List.mem_cons.1 hp with rfl | hp
      · exact (standsIn_rewriteTag tag).append_right _
      · exact Piece.StandsIn.append_left _ (ih p hp)

/-- A pass keeps what is left of the markup in its place. -/
theorem standsIn_of_pass (h : ∀ p ∈ pieces, p.StandsIn whole offset) :
    ∀ p ∈ passes.pass family pieces, p.StandsIn whole offset := by
  intro p hp
  obtain ⟨q, hq, hp⟩ := List.mem_flatMap.1 hp
  cases q with
  | markup text place =>
    refine (h _ hq).trans ?_
    have hstands := standsIn_of_rewriteTags p hp
    rwa [Markers.unsplitTags_splitTags] at hstands
  | output text =>
    rw [rewritePiece, List.mem_singleton] at hp
    exact hp ▸ trivial

theorem standsIn_of_rewrite (h : ∀ p ∈ pieces, p.StandsIn whole offset) :
    ∀ p ∈ passes.rewrite pieces, p.StandsIn whole offset :=
  standsIn_of_pass (standsIn_of_pass (standsIn_of_pass h))

end

end EchoPasses

namespace Markers

variable {markers : Markers} {position place : Nat} {t : Text}

/-- An unclosed opening marker is written where it is reported. -/
theorem firstUnclosed?_eq_some (h : markers.firstUnclosed? position t = some place) :
    ∃ front back, t = front ++ markers.opening ++ back ∧ place = position + Text.byteLength front := by
  fun_induction firstUnclosed? markers position t with
  | case1 => cases h
  | case2 position t before after hcut here hcontains ih =>
    obtain ⟨front, back, rfl, rfl⟩ := ih h
    refine ⟨before ++ markers.opening ++ front, back, ?_, ?_⟩
    · rw [Text.cut?_eq_some hcut]
      simp only [List.append_assoc]
    · simp only [Text.byteLength_append, here]
      omega
  | case3 position t before after hcut here hcontains =>
    exact ⟨before, after, Text.cut?_eq_some hcut, (Option.some.inj h).symm⟩

theorem unterminated?_eq_some {later : List (Text × Nat)}
    (h : markers.unterminated? t later = some place) :
    ∃ front back, t = front ++ markers.opening ++ back ∧ place = Text.byteLength front := by
  unfold unterminated? at h
  split at h
  · cases h
  · obtain ⟨front, back, ht, hplace⟩ := firstUnclosed?_eq_some h
    exact ⟨front, back, ht, by rw [hplace, Nat.zero_add]⟩

end Markers

namespace EchoPasses

variable {passes : EchoPasses} {place : Nat} {kind : TagKind} {t : Text}

/-- The place of an unterminated tag is where its family's opening marker is written. -/
theorem unterminated?_eq_some {later : List (Text × Nat)}
    (h : passes.unterminated? t later = some (place, kind)) :
    ∃ family : EchoFamily, family.kind = kind ∧ ∃ front back,
      t = front ++ (passes.markers family).opening ++ back ∧ place = Text.byteLength front := by
  have fold : ∀ step : Option (Nat × TagKind) → EchoFamily → Option (Nat × TagKind),
      (∀ first family, step first family = some (place, kind) → first = some (place, kind) ∨
        family.kind = kind ∧ (passes.markers family).unterminated? t later = some place) →
      ∀ (families : List EchoFamily) (first : Option (Nat × TagKind)),
        families.foldl step first = some (place, kind) → first = some (place, kind) ∨
          ∃ family : EchoFamily, family.kind = kind ∧
            (passes.markers family).unterminated? t later = some place := by
    intro step hstep families
    induction families with
    | nil => exact fun first h => .inl h
    | cons family families ih =>
      intro first h
      rcases ih _ h with hfirst | hlater
      · rcases hstep first family hfirst with hfirst | hfamily
        · exact .inl hfirst
        · exact .inr ⟨family, hfamily⟩
      · exact .inr hlater
  unfold unterminated? at h
  refine (fold _ ?_ families none h).elim (fun hnone => by cases hnone) ?_
  · intro first family hfirst
    split at hfirst
    · exact .inl hfirst
    case _ position hposition =>
      split at hfirst
      · cases hfirst
        exact .inr ⟨rfl, hposition⟩
      · exact .inl hfirst
  · rintro ⟨family, hkind, hfamily⟩
    exact ⟨family, hkind, Markers.unterminated?_eq_some hfamily⟩

theorem checkTerminated_eq_error {markups : List (Text × Nat)} {error : TranspileError}
    (h : passes.checkTerminated markups = .error error) :
    ∃ text offset family front back, (text, offset) ∈ markups ∧
      text = front ++ (passes.markers family).opening ++ back ∧
      error = .unterminatedTag family.kind (offset + Text.byteLength front) := by
  induction markups with
  | nil => cases h
  | cons markup later ih =>
    obtain ⟨text, offset⟩ := markup
    unfold checkTerminated at h
    split at h
    case _ position kind hunterminated =>
      cases h
      obtain ⟨family, rfl, front, back, htext, rfl⟩ := unterminated?_eq_some hunterminated
      exact ⟨text, offset, family, front, back, List.mem_cons_self, htext, rfl⟩
    case _ =>
      obtain ⟨text, offset, family, front, back, hmem, hrest⟩ := ih h
      exact ⟨text, offset, family, front, back, List.mem_cons_of_mem _ hmem, hrest⟩

/-- An error of the echo passes is the place of an opening marker in the text that the pieces
    stand in. -/
theorem transpilePieces_eq_error {pieces : List Piece} {whole : Text} {offset : Nat}
    {error : TranspileError} (hstands : ∀ p ∈ pieces, p.StandsIn whole offset)
    (h : passes.transpilePieces pieces = .error error) :
    ∃ family front back, whole = front ++ (passes.markers family).opening ++ back ∧
      error = .unterminatedTag family.kind (offset + Text.byteLength front) := by
  have hcheck : passes.checkTerminated (Piece.markups (passes.rewrite pieces)) = .error error := by
    rw [transpilePieces_eq] at h
    split at h
    · cases h
      assumption
    · cases h
  obtain ⟨text, place, family, front, back, hmem, rfl, rfl⟩ := checkTerminated_eq_error hcheck
  obtain ⟨front', back', rfl, rfl⟩ := standsIn_of_rewrite hstands _ (Piece.mem_markups.1 hmem)
  refine ⟨family, front' ++ front, back ++ back', by simp only [List.append_assoc], ?_⟩
  rw [Text.byteLength_append, Nat.add_assoc]

end EchoPasses

end Template
