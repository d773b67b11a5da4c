import Template.Proofs.EchoPass
import Template.Proofs.Segment

/-! # Echo passes over segments

Where a run of segments holds text and tags of some families only, the passes of these families
make the output of the run out of its text and leave no opening brace behind. Each pass finds
the tags of its own family: it starts none inside a tag of a later one.
-/

namespace Template

/-- The place of a family's pass among the three. -/
def EchoFamily.rank : EchoFamily → Nat
  | .raw => 0
  | .escaped => 1
  | .regular => 2

namespace EchoPasses

section

variable {family own : EchoFamily} {s t after : Text}

/-- An opening marker does not begin inside that of a later family. -/
theorem avoids_opening {c : Char} (hrank : family.rank < own.rank) (hc : isBlank c = true) :
    Text.Avoids ((standard.markers family).opening <+: ·) (standard.markers own).opening (c :: t) := by
  have hbrace : '\x7b' ≠ c := by
    rintro rfl
    cases hc
  have hmark : '!' ≠ c := by
    rintro rfl
    cases hc
  match family, own with
  | .raw, .escaped | .raw, .regular | .escaped, .regular =>
    simp [standard, markers, List.cons_prefix_cons, hbrace, hmark]
  | .raw, .raw | .escaped, .raw | .escaped, .escaped | .regular, .raw | .regular, .escaped
  | .regular, .regular => exact absurd hrank (by decide)

/-- A closing marker begins at its own place only, after text without closing braces. -/
theorem avoids_closing (family : EchoFamily) (after : Text) (h : '\x7d' ∉ s) :
    Text.Avoids ((standard.markers family).closing <+: ·) s ((standard.markers family).closing ++ after) := by
  cases family with
  | escaped | regular =>
    apply Text.avoids_of_head
    rintro c hc u hbegins
    have hbrace : '\x7d' = c := (List.cons_prefix_cons.1 hbegins).1
    exact h (hbrace ▸ hc)
  | raw =>
    rw [Text.avoids_iff]
    rintro front back rfl hback hbegins
    have hclosing : '\x7d' ∉ back := fun hmem => h (List.mem_append_right front hmem)
    match back with
    | [] => exact hback rfl
    | [_] | [_, _] => simp [standard, markers, List.cons_prefix_cons] at hbegins
    | _ :: _ :: c :: _ =>
      simp [standard, markers, List.cons_prefix_cons] at hbegins
      simp [← hbegins.2.2] at hclosing

theorem value_eq_shown (family : EchoFamily) (expression : Text) :
    standard.value family expression = family.shown expression := by
  cases family <;> rfl

theorem rewriteTag_echo (outputs : Outputs) (family : EchoFamily) (start : Nat)
    (lead expression trail lineBreak : Text) :
    standard.rewriteTag family start ⟨false, lead, expression, trail, lineBreak⟩ =
      .output ((Segment.echo family lead expression trail lineBreak).rendered outputs) := by
  change Piece.output (echoCode (standard.value family expression) lineBreak) = _
  rw [value_eq_shown]
  rfl

theorem rewriteTag_literal (outputs : Outputs) (hfamily : family ≠ .escaped) (start : Nat)
    (lead expression trail lineBreak : Text) :
    standard.rewriteTag family start ⟨true, lead, expression, trail, lineBreak⟩ =
      .output ((Segment.literal family lead expression trail).rendered outputs ++ lineBreak) := by
  cases family with
  | escaped => exact absurd rfl hfamily
  | raw | regular =>
    simp [rewriteTag, EchoTag.unescaped, EchoTag.inside, Segment.rendered]

end

end EchoPasses

namespace Segment

variable {family : EchoFamily} {lead expression trail lineBreak after : Text}

theorem tagFromOpening?_eq (family : EchoFamily) (escaped : Bool) (h : IsInside lead expression trail) (after : Text) :
    (EchoPasses.standard.markers family).tagFromOpening? escaped
        ((EchoPasses.standard.markers family).opening ++ (lead ++ (expression ++ (trail ++
          ((EchoPasses.standard.markers family).closing ++ after))))) =
      some (⟨escaped, lead, expression, trail, (splitLineBreak after).1⟩, (splitLineBreak after).2) := by
  have hbrace : '\x7d' ∉ expression ++ trail :=
    fun hmem => h.closing_not_mem (List.mem_append_right lead hmem)
  refine Markers.tagFromOpening?_of_parts escaped h.lead_blank h.head h.last h.trail_blank
    (EchoPasses.avoids_closing family after hbrace) ?_
  intro c hc
  cases family <;> cases hc <;> decide

/-- An echo tag is read with the line break that it is written with. -/
theorem tag?_echo (family : EchoFamily) (h : IsInside lead expression trail)
    (hlineBreak : lineBreak = [] ∨ lineBreak = ['\n'] ∨ lineBreak = ['\r', '\n'])
    (hafter : lineBreak = [] → (splitLineBreak after).1 = []) :
    (EchoPasses.standard.markers family).tag?
        ((echo family lead expression trail lineBreak).source ++ after) =
      some (⟨false, lead, expression, trail, lineBreak⟩, after) := by
  have hsplit : splitLineBreak (lineBreak ++ after) = (lineBreak, after) := by
    rcases hlineBreak with rfl | rfl | rfl
    · have hnone := hafter rfl
      have happend := splitLineBreak_append after
      rw [hnone, List.nil_append] at happend
      exact Prod.ext hnone happend
    · rfl
    · rfl
  have hread := tagFromOpening?_eq family false h (lineBreak ++ after)
  rw [Markers.tag?_of_head_ne (by cases family <;> simp [source, EchoPasses.standard, EchoPasses.markers, escapeMarker])]
  rw [hsplit] at hread
  rw [← hread]
  simp only [source, List.append_assoc]

/-- A literal tag takes the line break after it along. -/
theorem tag?_literal (family : EchoFamily) (h : IsInside lead expression trail) (after : Text) :
    (EchoPasses.standard.markers family).tag? ((literal family lead expression trail).source ++ after) =
      some (⟨true, lead, expression, trail, (splitLineBreak after).1⟩, (splitLineBreak after).2) := by
  have hread := tagFromOpening?_eq family true h after
  rw [← Markers.tag?_escapeMarker_cons hread]
  simp only [source, List.cons_append, List.append_assoc]

/-- The segment is text or a tag of one of the families. -/
def IsFor (families : List EchoFamily) : Segment → Prop
  | text _ => True
  | echo own _ _ _ _ | literal own _ _ _ => own ∈ families
  | comment _ | directive _ _ _ | native _ => False

theorem IsFor.isComment_eq_false {families : List EchoFamily} {segment : Segment}
    (h : segment.IsFor families) : segment.isComment = false := by
  cases segment with
  | comment => exact h.elim
  | text | echo | literal | directive | native => rfl

/-- A segment for some families that is not of the first is for the others. -/
theorem IsFor.of_isOf_eq_false {families : List EchoFamily} {segment : Segment}
    (h : segment.IsFor (family :: families)) (hnot : segment.isOf family = false) :
    segment.IsFor families := by
  cases segment with
  | text => trivial
  | echo own | literal own =>
    rcases List.mem_cons.1 h with rfl | hmem
    · simp [isOf] at hnot
    · exact hmem
  | comment | directive | native => exact h.elim

/-- The opening marker of a family stands at the head of the text, behind the escape marker or
    not. -/
def OpensAt (family : EchoFamily) (t : Text) : Prop :=
  (EchoPasses.standard.markers family).opening <+: t ∨
    escapeMarker :: (EchoPasses.standard.markers family).opening <+: t

theorem head?_of_opening_isPrefix {t : Text} (h : (EchoPasses.standard.markers family).opening <+: t) :
    t.head? = some '\x7b' := by
  obtain ⟨u, rfl⟩ := h
  cases family <;> rfl

theorem avoids_opensAt_of_head {s t : Text} (h : ∀ c ∈ s, c ≠ '\x7b' ∧ c ≠ '@') :
    Text.Avoids (OpensAt family) s t := by
  apply Text.avoids_of_head
  rintro c hc u (hbegins | hbegins)
  · exact (h c hc).1 (Option.some.inj (head?_of_opening_isPrefix hbegins))
  · exact (h c hc).2 (List.cons_prefix_cons.1 hbegins).1.symm

theorem avoids_opensAt_opening {own : EchoFamily} {c : Char} {t : Text} (hrank : family.rank < own.rank)
    (hc : isBlank c = true) :
    Text.Avoids (OpensAt family) (EchoPasses.standard.markers own).opening (c :: t) := by
  have hescape : Text.Avoids (escapeMarker :: (EchoPasses.standard.markers family).opening <+: ·)
      (EchoPasses.standard.markers own).opening (c :: t) := by
    apply Text.avoids_of_head
    intro d hd u hbegins
    have hd' : d = escapeMarker := (List.cons_prefix_cons.1 hbegins).1.symm
    subst hd'
    revert hd
    cases own <;> decide
  rw [Text.avoids_iff] at hescape ⊢
  rintro front back hmark hback (hbegins | hbegins)
  · exact Text.avoids_iff.1 (EchoPasses.avoids_opening hrank hc) front back hmark hback hbegins
  · exact hescape front back hmark hback hbegins

/-- No tag starts in an expression or in the blanks around it. -/
theorem avoids_opensAt_inside {t : Text} (h : IsInside lead expression trail)
    (ht : t.head? ≠ some '\x7b') :
    Text.Avoids (OpensAt family) (lead ++ (expression ++ trail)) t := by
  have hbrace := h.opening_not_mem
  generalize lead ++ (expression ++ trail) = s at hbrace
  induction s with
  | nil => trivial
  | cons c s ih =>
    rw [List.mem_cons, not_or] at hbrace
    refine ⟨?_, ih hbrace.2⟩
    rintro (hbegins | hbegins)
    · cases head?_of_opening_isPrefix hbegins
      exact hbrace.1 rfl
    · have hhead := head?_of_opening_isPrefix (List.cons_prefix_cons.1 hbegins).2
      cases s with
      | nil => exact ht hhead
      | cons d s =>
        cases hhead
        exact hbrace.2 List.mem_cons_self

/-- No tag of a family starts in a tag of a later one. -/
theorem avoids_opensAt_echo {own : EchoFamily} (hrank : family.rank < own.rank)
    (h : IsInside lead expression trail)
    (hlineBreak : lineBreak = [] ∨ lineBreak = ['\n'] ∨ lineBreak = ['\r', '\n']) (t : Text) :
    Text.Avoids (OpensAt family) (echo own lead expression trail lineBreak).source t := by
  obtain ⟨c, lead', hlead⟩ := List.exists_cons_of_ne_nil h.lead_ne_nil
  have hblank : isBlank c = true := h.lead_blank c (hlead ▸ List.mem_cons_self)
  have hend : ((EchoPasses.standard.markers own).closing ++ (lineBreak ++ t)).head? ≠ some '\x7b' := by
    cases own <;> simp [EchoPasses.standard, EchoPasses.markers]
  have hinside : Text.Avoids (OpensAt family) (lead ++ (expression ++ trail)) _ :=
    avoids_opensAt_inside h hend
  have hclosing : Text.Avoids (OpensAt family) (EchoPasses.standard.markers own).closing
      (lineBreak ++ t) := by
    apply avoids_opensAt_of_head
    cases own <;> simp [EchoPasses.standard, EchoPasses.markers]
  have hbreak : Text.Avoids (OpensAt family) lineBreak t := by
    apply avoids_opensAt_of_head
    rcases hlineBreak with rfl | rfl | rfl <;> simp
  have hopening := avoids_opensAt_opening (t := lead' ++ (expression ++ (trail ++
    ((EchoPasses.standard.markers own).closing ++ (lineBreak ++ t))))) hrank hblank
  rw [← List.cons_append, ← hlead] at hopening
  simp only [Text.avoids_append, List.append_assoc] at hinside
  simp only [source, Text.avoids_append, List.append_assoc]
  exact ⟨hopening, hinside.1, hinside.2.1, hinside.2.2, hclosing, hbreak⟩

theorem avoids_opensAt_literal {own : EchoFamily} (hrank : family.rank < own.rank)
    (h : IsInside lead expression trail) (t : Text) :
    Text.Avoids (OpensAt family) (literal own lead expression trail).source t := by
  have hecho : Text.Avoids (OpensAt family) (echo own lead expression trail []).source t :=
    avoids_opensAt_echo hrank h (.inl rfl) t
  rw [source_literal]
  refine ⟨?_, hecho⟩
  rintro (hbegins | hbegins)
  · cases head?_of_opening_isPrefix hbegins
  · have hne : (echo own lead expression trail []).source ≠ [] := by
      cases own <;> simp [source, EchoPasses.standard, EchoPasses.markers]
    exact Text.avoids_iff.1 hecho [] _ rfl hne (.inl (List.cons_prefix_cons.1 hbegins).2)

/-- No tag of a family starts in a segment for later ones. -/
theorem avoids_tag? {families : List EchoFamily} {segment : Segment}
    (hrank : ∀ own ∈ families, family.rank < own.rank) (hwell : segment.WellFormed)
    (hfor : segment.IsFor families) (t : Text) :
    Text.Avoids (fun u => (EchoPasses.standard.markers family).tag? u ≠ none) segment.source t := by
  refine Text.Avoids.mono (p := OpensAt family) ?_
    fun u hu => Markers.opening_isPrefix_of_tag?_ne_none hu
  cases segment with
  | text written =>
    refine avoids_opensAt_of_head fun c hc => ⟨?_, ?_⟩
    · rintro rfl
      exact hwell.1 hc
    · rintro rfl
      exact hwell.2.1 hc
  | echo own lead expression trail lineBreak =>
    exact avoids_opensAt_echo (hrank own hfor) hwell.1 hwell.2 t
  | literal own lead expression trail => exact avoids_opensAt_literal (hrank own hfor) hwell t
  | comment | directive | native => exact hfor.elim

end Segment

namespace EchoPasses

/-- The passes of some families, one after another. -/
def settle (passes : EchoPasses) : List EchoFamily → List Piece → List Piece
  | [], pieces => pieces
  | family :: families, pieces => settle passes families (passes.pass family pieces)

section

variable {passes : EchoPasses} {families : List EchoFamily}

theorem mem_families (family : EchoFamily) : family ∈ EchoPasses.families := by
  cases family <;> decide

theorem rewrite_eq_settle (pieces : List Piece) :
    passes.rewrite pieces = passes.settle EchoPasses.families pieces := rfl

@[simp] theorem settle_nil : passes.settle families [] = [] := by
  induction families with
  | nil => rfl
  | cons family families ih => exact ih

@[simp] theorem settle_append (pieces more : List Piece) :
    passes.settle families (pieces ++ more) =
      passes.settle families pieces ++ passes.settle families more := by
  induction families generalizing pieces more with
  | nil => rfl
  | cons family families ih => rw [settle, pass_append, ih, settle, settle]

theorem settle_output (t : Text) : passes.settle families [.output t] = [.output t] := by
  induction families with
  | nil => rfl
  | cons family families ih => exact ih

end

/-- The passes of the families make `out` of the pieces, and leave no opening brace in markup. -/
def Settles (families : List EchoFamily) (pieces : List Piece) (out : Text) : Prop :=
  Piece.joined (standard.settle families pieces) = out ∧
    ∀ m ∈ Piece.markups (standard.settle families pieces), '\x7b' ∉ m.1

section

variable {family : EchoFamily} {families : List EchoFamily} {pieces more : List Piece}
  {out out' t : Text}

theorem Settles.append (h : Settles families pieces out) (hmore : Settles families more out') :
    Settles families (pieces ++ more) (out ++ out') := by
  refine ⟨?_, ?_⟩
  · rw [settle_append, Piece.joined_append, h.1, hmore.1]
  · rw [settle_append]
    intro m hm
    rw [Piece.markups, List.filterMap_append, List.mem_append] at hm
    exact hm.elim (h.2 m) (hmore.2 m)

theorem Settles.cons {p : Piece} (h : Settles families [p] out) (hmore : Settles families more out') :
    Settles families (p :: more) (out ++ out') := h.append hmore

theorem settles_output (t : Text) : Settles families [.output t] t := by
  refine ⟨?_, ?_⟩
  · rw [settle_output]
    simp [Piece.text]
  · rw [settle_output]
    intro m hm
    cases hm

theorem opening_not_infix_of_not_mem (family : EchoFamily) (h : '\x7b' ∉ t) :
    ¬ (standard.markers family).opening <:+: t := by
  intro hoccurs
  apply h (hoccurs.subset _)
  cases family <;> decide

/-- Markup without opening braces stays as it is. -/
theorem settles_ofMarkup (h : '\x7b' ∉ t) (offset : Nat) :
    Settles families (Piece.ofMarkup t offset) t := by
  have hsettle : standard.settle families (Piece.ofMarkup t offset) = Piece.ofMarkup t offset := by
    induction families with
    | nil => rfl
    | cons family families ih =>
      have hopening := opening_not_infix_of_not_mem family h
      rw [settle, pass_ofMarkup_of_none _ (Markers.nextTag?_of_not_infix hopening), ih]
  refine ⟨by rw [hsettle, Piece.joined_ofMarkup], ?_⟩
  rw [hsettle]
  intro m hm
  cases Piece.eq_of_mem_ofMarkup (Piece.mem_markups.1 hm)
  exact h

theorem transpilePieces_of_settles (h : Settles EchoPasses.families pieces out) :
    standard.transpilePieces pieces = .ok out := by
  obtain ⟨hout, hbrace⟩ := h
  rw [← rewrite_eq_settle] at hout hbrace
  rw [transpilePieces_of_closes, hout]
  exact fun m hm family => Markers.closes_of_not_infix (opening_not_infix_of_not_mem family (hbrace m hm))

end

end EchoPasses

namespace Segments

open EchoPasses (Settles)

variable {family : EchoFamily} {families : List EchoFamily} {outputs : Outputs}

/-- The passes of the families make the output of every run of text and tags of theirs. -/
def SettlesRuns (families : List EchoFamily) (outputs : Outputs) : Prop :=
  ∀ run offset, (∀ s ∈ run, s.WellFormed ∧ s.IsFor families) → Placed none run →
    Settles families (Piece.ofMarkup (source run) offset) (rendered outputs run)

/-- The first tag of a family in a run is the first segment of that family. -/
theorem nextTag?_source {run : List Segment} {segment : Segment} {tag : EchoTag} {after rest : Text}
    (hrank : ∀ own ∈ families, family.rank < own.rank)
    (hrun : ∀ s ∈ run, s.WellFormed ∧ s.IsFor families)
    (htag : (EchoPasses.standard.markers family).tag? (segment.source ++ after) = some (tag, rest)) :
    (EchoPasses.standard.markers family).nextTag? (source run ++ (segment.source ++ after)) =
      some (source run, tag, rest) := by
  apply Markers.nextTag?_of_avoids ?_ htag
  exact avoids_source (fun s hs t => Segment.avoids_tag? hrank (hrun s hs).1 (hrun s hs).2 t) _

theorem nextTag?_source_eq_none {run : List Segment} (hrank : ∀ own ∈ families, family.rank < own.rank)
    (hrun : ∀ s ∈ run, s.WellFormed ∧ s.IsFor families) :
    (EchoPasses.standard.markers family).nextTag? (source run) = none := by
  have havoids := avoids_source (fun s hs t => Segment.avoids_tag? hrank (hrun s hs).1 (hrun s hs).2 t) []
  have hnext := Markers.nextTag?_append_of_avoids havoids
  rwa [List.append_nil] at hnext

/-- One more family: its pass takes its own tags out of the run, and what is left between them
    are runs for the later families. -/
theorem SettlesRuns.cons (hruns : SettlesRuns families outputs)
    (hrank : ∀ own ∈ families, family.rank < own.rank)
    (hliteral : ∀ lead expression trail lineBreak start, IsInside lead expression trail →
      '\x7b' ∉ lineBreak → Settles families
        [EchoPasses.standard.rewriteTag family start ⟨true, lead, expression, trail, lineBreak⟩]
        ((Segment.literal family lead expression trail).rendered outputs ++ lineBreak)) :
    SettlesRuns (family :: families) outputs := by
  have hothers : ∀ run : List Segment, (∀ s ∈ run, s.isOf family = false) →
      (∀ s ∈ run, s.WellFormed ∧ s.IsFor (family :: families)) →
        ∀ s ∈ run, s.WellFormed ∧ s.IsFor families :=
    fun run hof hrun s hs => ⟨(hrun s hs).1, (hrun s hs).2.of_isOf_eq_false (hof s hs)⟩
  intro run
  induction run using first_induction (fun s => s.isOf family) with
  | none run hof =>
    intro offset hrun hplaced
    have hrun' := hothers run hof hrun
    change Settles families (EchoPasses.standard.pass family _) _
    rw [EchoPasses.pass_ofMarkup_of_none _ (nextTag?_source_eq_none hrank hrun')]
    exact hruns run offset hrun' hplaced
  | first run segment rest hof hsegment ih =>
    intro offset hrun hplaced
    obtain ⟨hrun', hlist⟩ := List.forall_mem_append.1 hrun
    obtain ⟨⟨hwell, _⟩, hrest⟩ := List.forall_mem_cons.1 hlist
    obtain ⟨hbefore, hfits, hafter⟩ := hplaced.append
    have hrun'' := hothers run hof hrun'
    change Settles families (EchoPasses.standard.pass family _) _
    rw [source_append, source_cons, rendered_append, rendered_cons]
    cases segment with
    | echo own lead expression trail lineBreak =>
      obtain rfl : own = family := of_decide_eq_true hsegment
      have hkept : kept rest = source rest := kept_eq_source fun s hs => (hrest s hs).2.isComment_eq_false
      rw [Segment.Fits, hkept] at hfits
      have htag := Segment.tag?_echo own hwell.1 hwell.2 hfits
      obtain ⟨start, next, hpass⟩ :=
        EchoPasses.pass_ofMarkup_of_some offset (nextTag?_source hrank hrun'' htag)
      rw [hpass]
      refine Settles.append (hruns run offset hrun'' hbefore) ?_
      refine Settles.cons ?_ (ih rest rfl next hrest hafter.start)
      rw [EchoPasses.rewriteTag_echo outputs]
      exact EchoPasses.settles_output _
    | literal own lead expression trail =>
      obtain rfl : own = family := of_decide_eq_true hsegment
      obtain ⟨later, hlength, hlater, hrendered, hleaves, hplaced'⟩ :=
        exists_after_lineBreak fun s hs => (hrest s hs).1
      have htag := Segment.tag?_literal own hwell (source rest)
      rw [← hlater] at htag
      obtain ⟨start, next, hpass⟩ :=
        EchoPasses.pass_ofMarkup_of_some offset (nextTag?_source hrank hrun'' htag)
      have hlater' := hleaves (fun s => s.WellFormed ∧ s.IsFor (own :: families))
        (fun whole written hsuffix h => ⟨Segment.WellFormed.text_of_suffix whole written hsuffix h.1, trivial⟩)
        hrest
      rw [hpass, hrendered, ← List.append_assoc (Segment.rendered _ _)]
      refine Settles.append (hruns run offset hrun'' hbefore) ?_
      refine Settles.cons ?_ (ih later hlength next hlater' (hplaced' _ hafter))
      refine hliteral _ _ _ _ _ hwell ?_
      rcases splitLineBreak_fst_cases (source rest) with h | h | h <;> rw [h] <;> decide
    | text | comment | directive | native => cases hsegment

theorem settlesRuns_nil (outputs : Outputs) : SettlesRuns [] outputs := by
  intro run offset hrun hplaced
  clear hplaced
  have htext : '\x7b' ∉ source run ∧ rendered outputs run = source run := by
    induction run with
    | nil => exact ⟨by simp, rfl⟩
    | cons segment run ih =>
      obtain ⟨⟨hwell, hfor⟩, hlater⟩ := List.forall_mem_cons.1 hrun
      obtain ⟨hbrace, hrendered⟩ := ih hlater
      cases segment with
      | text written =>
        refine ⟨?_, by rw [rendered_cons, hrendered]; rfl⟩
        rw [source_cons, List.mem_append, not_or]
        exact ⟨hwell.1, hbrace⟩
      | echo own | literal own => cases hfor
      | comment | directive | native => exact hfor.elim
  rw [htext.2]
  exact EchoPasses.settles_ofMarkup htext.1 offset

/-- The escaped family leaves its literal tags to the regular one, which takes them up to their
    last brace. -/
theorem settles_escaped_literal {lead expression trail lineBreak : Text} (start : Nat)
    (h : IsInside lead expression trail) (hlineBreak : '\x7b' ∉ lineBreak) :
    Settles [.regular]
      [EchoPasses.standard.rewriteTag .escaped start ⟨true, lead, expression, trail, lineBreak⟩]
      ((Segment.literal .escaped lead expression trail).rendered outputs ++ lineBreak) := by
  have hbrace : '\x7d' ∉ '\x7b' :: (lead ++ expression) ++ trail := by
    rw [List.cons_append, List.mem_cons, not_or, List.append_assoc]
    exact ⟨by decide, h.closing_not_mem⟩
  have hlast : ∃ c ∈ ('\x7b' :: (lead ++ expression)).getLast?, isBlank c = false := by
    obtain ⟨c, hc, hblank⟩ := h.last
    refine ⟨c, ?_, hblank⟩
    rw [← List.cons_append, List.getLast?_append, hc]
    rfl
  have hlead : ∀ c ∈ ([] : Text), isBlank c = true := by simp
  have hread := Markers.tagFromOpening?_of_parts true hlead ⟨'\x7b', rfl, by decide⟩ hlast h.trail_blank
    (EchoPasses.avoids_closing .regular ('\x7d' :: lineBreak) hbrace)
    (fun c hc => by cases hc; decide)
  have hsource : EchoTag.source EchoPasses.standard.escaped ⟨true, lead, expression, trail, lineBreak⟩ =
      escapeMarker :: ((EchoPasses.standard.markers .regular).opening ++ ([] ++
        ('\x7b' :: (lead ++ expression) ++ (trail ++
          ((EchoPasses.standard.markers .regular).closing ++ '\x7d' :: lineBreak))))) := by
    simp [EchoTag.source, EchoTag.unescaped, EchoTag.inside, EchoPasses.standard, EchoPasses.markers]
  have hnext : (EchoPasses.standard.markers .regular).nextTag?
      (EchoTag.source EchoPasses.standard.escaped ⟨true, lead, expression, trail, lineBreak⟩) =
        some ([], ⟨true, [], '\x7b' :: (lead ++ expression), trail, []⟩, '\x7d' :: lineBreak) := by
    rw [hsource, Markers.nextTag?, Markers.tag?_escapeMarker_cons hread]
    rfl
  obtain ⟨again, next, hpass⟩ := EchoPasses.pass_ofMarkup_of_some start hnext
  have hshown : (Segment.literal .escaped lead expression trail).rendered outputs ++ lineBreak =
      (Segment.literal .regular [] ('\x7b' :: (lead ++ expression)) trail).rendered outputs ++ [] ++
        '\x7d' :: lineBreak := by
    simp [Segment.rendered, EchoPasses.standard, EchoPasses.markers]
  have hrest : '\x7b' ∉ '\x7d' :: lineBreak := by
    rw [List.mem_cons, not_or]
    exact ⟨by decide, hlineBreak⟩
  have hlater : Settles [] (EchoPasses.standard.pass .regular (Piece.ofMarkup ('\x7d' :: lineBreak) next))
      ('\x7d' :: lineBreak) :=
    (EchoPasses.settles_ofMarkup hrest next : Settles [.regular] _ _)
  change Settles [] (EchoPasses.standard.pass .regular (Piece.ofMarkup (EchoTag.source
    EchoPasses.standard.escaped ⟨true, lead, expression, trail, lineBreak⟩) start)) _
  rw [hpass, hshown, EchoPasses.rewriteTag_literal outputs (by decide)]
  exact Settles.cons (EchoPasses.settles_output _) hlater

/-- The three passes make the output of every run of text and tags. -/
theorem settlesRuns_families (outputs : Outputs) : SettlesRuns EchoPasses.families outputs := by
  refine SettlesRuns.cons (SettlesRuns.cons (SettlesRuns.cons (settlesRuns_nil outputs) ?_ ?_) ?_ ?_) ?_ ?_
  · decide
  · intro lead expression trail lineBreak start _ _
    rw [EchoPasses.rewriteTag_literal outputs (by decide)]
    exact EchoPasses.settles_output _
  · decide
  · exact fun _ _ _ _ start h hlineBreak => settles_escaped_literal start h hlineBreak
  · decide
  · intro lead expression trail lineBreak start _ _
    rw [EchoPasses.rewriteTag_literal outputs (by decide)]
    exact EchoPasses.settles_output _

end Segments

end Template
