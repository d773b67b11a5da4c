import Template.Proofs.Comment
import Template.Proofs.Place
import Template.Proofs.Standard

/-! # Places of unterminated tags

An unterminated comment is reported where its opening marker is written. Any other unterminated
tag is reported at its place in the markup without comments, so what it lacks to its place in
the template is the closed comments before it.
-/

namespace Template

namespace Action

variable {α β : Type}

/-- An action that reports no unterminated tag and asks for no text that may hold one. -/
def ReportsNoTag : Action α → Prop
  | done _ => True
  | fail error => ∀ kind place, error ≠ .unterminatedTag kind place
  | pushFooter _ next => next.ReportsNoTag
  | readFooter next => ∀ footer, (next footer).ReportsNoTag
  | readOffset next => ∀ offset, (next offset).ReportsNoTag
  | readNames next => ∀ names, (next names).ReportsNoTag
  | statements _ _ | echoes _ _ | render _ _ => False

theorem ReportsNoTag.bind {x : Action α} {f : α → Action β} (hx : x.ReportsNoTag)
    (hf : ∀ value, (f value).ReportsNoTag) : (x.bind f).ReportsNoTag := by
  induction x with
  | done value => exact hf value
  | fail error => exact hx
  | pushFooter line next ih => exact ih hx
  | readFooter next ih | readOffset next ih | readNames next ih => exact fun answer => ih answer (hx answer)
  | statements | echoes | render => exact hx.elim

theorem ReportsNoTag.run_ne {x : Action α} (hx : x.ReportsNoTag) (answers : Answers)
    (known : List Text) (context : Context) (kind : TagKind) (place : Nat) (after : Context) :
    x.run answers known context ≠ (.error (.unterminatedTag kind place), after) := by
  induction x generalizing context with
  | done value =>
    intro h
    cases h
  | fail error =>
    intro h
    cases h
    exact hx kind place rfl
  | pushFooter line next ih => exact ih hx _
  | readFooter next ih => exact ih _ (hx _) context
  | readOffset next ih => exact ih _ (hx _) context
  | readNames next ih => exact ih known (hx known) context
  | statements | echoes | render => exact hx.elim

end Action

namespace Registry

theorem find?_insertAll {registry : Registry} {entries : List (Text × Handler)} {name : Text}
    {handler : Handler} (h : (registry.insertAll entries).find? name = some handler) :
    registry.find? name = some handler ∨ (name, handler) ∈ entries := by
  induction entries generalizing registry with
  | nil => exact .inl h
  | cons entry entries ih =>
    rcases ih h with hfound | hmem
    · rw [find?_insert] at hfound
      split at hfound
      case isTrue hname =>
        cases hfound
        exact .inr (hname ▸ List.mem_cons_self)
      case isFalse => exact .inl hfound
    · exact .inr (List.mem_cons_of_mem _ hmem)

theorem required_reportsNoTag (directive : Text) (argument : Option Text) :
    (required directive argument).ReportsNoTag := by
  unfold required
  split
  · trivial
  · intro kind place h
    cases h

theorem surround_reportsNoTag (directive before after : String) (argument : Option Text) :
    (surround directive before after argument).ReportsNoTag :=
  (required_reportsNoTag _ argument).bind fun _ => trivial

theorem extendLayout_reportsNoTag (argument : Option Text) : (extendLayout argument).ReportsNoTag :=
  (required_reportsNoTag _ argument).bind fun _ => trivial

theorem codeBlock_reportsNoTag (argument : Option Text) : (codeBlock argument).ReportsNoTag := by
  cases argument <;> trivial

/-- A built-in directive writes code, or rejects its use. -/
theorem builtins_reportsNoTag (answers : Answers) : builtins.ReportsNoTag answers := by
  intro name handler hfind argument context kind place after
  suffices h : (handler argument).ReportsNoTag from h.run_ne answers _ context kind place after
  rcases find?_insertAll hfind with hempty | hmem
  · cases hempty
  · have hhandler := List.mem_map_of_mem (f := Prod.snd) hmem
    simp only [List.map_cons, List.map_nil, List.mem_cons, List.not_mem_nil, or_false] at hhandler
    rcases hhandler with rfl | rfl | rfl | rfl | rfl | rfl | rfl | rfl | rfl | rfl | rfl
    all_goals first
      | exact surround_reportsNoTag _ _ _ argument
      | exact codeBlock_reportsNoTag argument
      | exact extendLayout_reportsNoTag argument
      | exact trivial

end Registry

/-- The opening mark of a family of tags in the default configuration. -/
def TagKind.standardOpening : TagKind → Text
  | .comment => Markers.standardComments.opening
  | .directive => directiveIntroducer
  | .rawEcho => EchoPasses.standard.raw.opening
  | .escapedEcho => EchoPasses.standard.escaped.opening
  | .regularEcho => EchoPasses.standard.regular.opening

theorem EchoFamily.standardOpening_kind (family : EchoFamily) :
    family.kind.standardOpening = (EchoPasses.standard.markers family).opening := by
  cases family <;> rfl

open Markers (standardComments)

/-- A mark is written at a byte position of the template, in markup and outside its closed
    comments. -/
def StandsInMarkup (source mark : Text) (offset : Nat) : Prop :=
  ∃ span ∈ Span.ofText source, span.isMarkup = true ∧ ∃ front back,
    span.text = front ++ mark ++ back ∧ offset = span.offset + Text.byteLength front ∧
      standardComments.insideComment (standardComments.splitComments span.text).1
        (Text.byteLength front) = false

theorem StandsInMarkup.exists_append {source mark : Text} {offset : Nat}
    (h : StandsInMarkup source mark offset) :
    ∃ front back, source = front ++ mark ++ back ∧ offset = Text.byteLength front := by
  obtain ⟨span, hspan, -, front, back, htext, hoffset, -⟩ := h
  obtain ⟨before, after, hsource, hstart⟩ := Span.mem_ofText hspan
  refine ⟨before ++ front, back ++ after, ?_, ?_⟩
  · rw [hsource, htext]
    simp only [List.append_assoc]
  · rw [hoffset, hstart, Text.byteLength_append]

namespace Transpiler

section

variable {answers : Answers} {t : Text} {context after : Context} {kind : TagKind} {offset : Nat}

/-- Markup fails at an unterminated comment, or at a mark of its comment-free text. -/
theorem renderMarkup_eq_unterminated
    (h : (standard .builtins).renderMarkup answers t context =
      (.error (.unterminatedTag kind offset), after)) :
    (kind = .comment ∧ ∃ front back,
      (standardComments.splitComments t).2 = front ++ kind.standardOpening ++ back ∧
        offset = context.offset + Text.byteLength
          (standardComments.withComments (standardComments.splitComments t).1 ++ front)) ∨
    (kind ≠ .comment ∧ ∃ front back,
      standardComments.keptText t = front ++ kind.standardOpening ++ back ∧
        offset = context.offset + Text.byteLength front) := by
  have hstrip : (standard .builtins).comments.stripComments context.offset t = _ :=
    Markers.stripComments_eq standardComments context.offset t
  rw [renderMarkup_apply rfl, hstrip] at h
  cases hopen : Text.cut? standardComments.opening (standardComments.splitComments t).2 with
  | some found =>
    obtain ⟨front, back⟩ := found
    rw [hopen] at h
    cases h
    exact .inl ⟨rfl, front, back, Text.cut?_eq_some hopen, rfl⟩
  | none =>
    rw [hopen] at h
    dsimp only at h
    have hunsplit := DirectiveTag.unsplit_splitAfter none (standardComments.keptText t)
    split at h
    case _ error between hcarry =>
      cases h
      obtain ⟨rfl, front, back, heq, hoffset⟩ :=
        Registry.carryOut_eq_unterminated (Registry.builtins_reportsNoTag answers) hcarry
      exact .inr ⟨by decide, front, back, hunsplit.symm.trans heq, hoffset⟩
    case _ pieces between hcarry =>
      rw [Prod.mk.injEq] at h
      obtain ⟨family, front, back, heq, herror⟩ :=
        EchoPasses.transpilePieces_eq_error (Registry.standsIn_of_carryOut hcarry) h.1
      cases herror
      refine .inr ⟨by cases family <;> decide, front, back, ?_, rfl⟩
      rw [EchoFamily.standardOpening_kind]
      exact hunsplit.symm.trans heq

end

/-- An unterminated tag is reported at its place in the markup that has lost its closed comments.
    So the place of a comment is where its opening mark is written, and the place of another tag
    is behind by the closed comments that stand before it in its span. -/
theorem unterminatedTag_place {source : Text} {kind : TagKind} {offset : Nat}
    (h : (standard .builtins).render source = .error (.unterminatedTag kind offset)) :
    (kind = .comment → StandsInMarkup source kind.standardOpening offset) ∧
    (kind ≠ .comment → ∃ span ∈ Span.ofText source, span.isMarkup = true ∧ ∃ front back,
      standardComments.keptText span.text = front ++ kind.standardOpening ++ back ∧
      offset = span.offset + Text.byteLength front ∧
      let dropped := standardComments.droppedBefore (standardComments.splitComments span.text).1
      (dropped (Text.byteLength (front ++ kind.standardOpening.dropLast)) =
          dropped (Text.byteLength front) →
        StandsInMarkup source kind.standardOpening (offset + dropped (Text.byteLength front))) ∧
      (dropped (Text.byteLength (front ++ kind.standardOpening.dropLast)) = 0 →
        StandsInMarkup source kind.standardOpening offset)) := by
  obtain ⟨after, hspans⟩ := renderWith_eq_error h
  obtain ⟨span, hspan, hmarkup, start, hstart, hrender⟩ := renderSpans_eq_error hspans
  rcases renderMarkup_eq_unterminated hrender with
    ⟨hkind, front, back, hlast, hoffset⟩ | ⟨hkind, front, back, hkept, hoffset⟩
  · refine ⟨fun _ => ⟨span, hspan, hmarkup, _, back, ?_, hstart ▸ hoffset,
      Markers.insideComment_withComments_append _ front⟩, fun hne => absurd hkind hne⟩
    rw [List.append_assoc, List.append_assoc, ← List.append_assoc front, ← hlast,
      Markers.withComments_splitComments]
  · refine ⟨fun heq => absurd heq hkind, fun _ =>
      ⟨span, hspan, hmarkup, front, back, hkept, hstart ▸ hoffset, ?_⟩⟩
    intro dropped
    have hplace : dropped (Text.byteLength (front ++ kind.standardOpening.dropLast)) =
        dropped (Text.byteLength front) →
          StandsInMarkup source kind.standardOpening (offset + dropped (Text.byteLength front)) := by
      intro hwhole
      have hmark : kind.standardOpening ≠ [] := by cases kind <;> decide
      obtain ⟨before, rest, htext, hlength, hinside⟩ :=
        Markers.exists_place_of_withoutComments hmark hkept hwhole
      refine ⟨span, hspan, hmarkup, before, rest, ?_, ?_, hinside⟩
      · rw [← htext, Markers.withComments_splitComments]
      · rw [hoffset, hstart, hlength, Nat.add_assoc]
    refine ⟨hplace, fun hnone => ?_⟩
    have hzero : dropped (Text.byteLength front) = 0 := by
      apply Nat.le_zero.1
      rw [← hnone]
      apply Markers.droppedBefore_mono
      rw [Text.byteLength_append]
      exact Nat.le_add_right _ _
    have hstands := hplace (hnone.trans hzero.symm)
    rwa [hzero, Nat.add_zero] at hstands

/-- A template whose only unterminated tag follows a closed comment. -/
def commentThenEcho : Text := "\x7b\x7b-- c --\x7d\x7db \x7b\x7b x".toList

theorem unterminatedTag_place_commentThenEcho :
    (standard .builtins).render commentThenEcho = .error (.unterminatedTag .regularEcho 2) ∧
      ∃ span ∈ Span.ofText commentThenEcho, span.isMarkup = true ∧ ∃ front back,
        standardComments.keptText span.text = front ++ TagKind.regularEcho.standardOpening ++ back ∧
          2 = span.offset + Text.byteLength front := by
  have hrender : (standard .builtins).render commentThenEcho =
      .error (.unterminatedTag .regularEcho 2) := by decide +kernel
  obtain ⟨span, hspan, hmarkup, front, back, hkept, hoffset, -⟩ :=
    (unterminatedTag_place hrender).2 (by decide)
  exact ⟨hrender, span, hspan, hmarkup, front, back, hkept, hoffset⟩

/-- No opening mark stands where the tag is reported: the comment's bytes are not counted. -/
theorem not_standsInMarkup_commentThenEcho :
    (standard .builtins).render commentThenEcho = .error (.unterminatedTag .regularEcho 2) ∧
      ¬ StandsInMarkup commentThenEcho TagKind.regularEcho.standardOpening 2 := by
  refine ⟨by decide +kernel, fun h => ?_⟩
  obtain ⟨front, back, hsource, hoffset⟩ := h.exists_append
  have hcut : TagKind.regularEcho.standardOpening ++ "-- c --\x7d\x7db \x7b\x7b x".toList =
      front ++ (TagKind.regularEcho.standardOpening ++ back) := by
    rw [← List.append_assoc, ← hsource]
    rfl
  obtain ⟨more, rfl, hmore⟩ := Text.exists_append_of_byteLength_le hcut (by rw [← hoffset]; decide)
  have hnil : more = [] := by
    apply Text.eq_nil_of_byteLength_eq_zero
    rw [Text.byteLength_append] at hoffset
    have : Text.byteLength TagKind.regularEcho.standardOpening = 2 := by decide
    omega
  rw [hnil] at hmore
  cases hmore

end Transpiler

end Template
