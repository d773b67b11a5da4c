import Template.Proofs.EchoPass
import Template.Proofs.Standard

/-! # Where an echo tag ends

A tag is read up to the first closing marker after its opening marker, unless that one has
nothing but blanks before it and another begins after its first character. An expression is
never empty, so the tag then takes the first marker for the start of its expression and ends at
the other one.
-/

namespace Template.Markers

section

variable {mark t before after : Text}

theorem avoids_of_blanks {blanks : Text} (hmark : ∃ c ∈ mark.head?, isBlank c = false)
    (hblanks : ∀ c ∈ blanks, isBlank c = true) (t : Text) :
    Text.Avoids (mark <+: ·) blanks t := by
  obtain ⟨m, hm, hnonblank⟩ := hmark
  obtain ⟨mark, rfl⟩ := List.head?_eq_some_iff.1 hm
  refine Text.avoids_of_not_mem fun hmem => ?_
  rw [hblanks m hmem] at hnonblank
  cases hnonblank

theorem blanks_of_blanksThen? {blanks : Text} (h : blanksThen? mark t = some (blanks, after)) :
    ∀ c ∈ blanks, isBlank c = true := by
  induction t generalizing blanks with
  | nil =>
    simp only [blanksThen?, Option.map_eq_some_iff, Prod.mk.injEq] at h
    obtain ⟨_, _, rfl, _⟩ := h
    exact List.forall_mem_nil _
  | cons c t ih =>
    unfold blanksThen? at h
    split at h
    case _ hmore =>
      cases h
      split at hmore
      case isTrue hblank => exact List.forall_mem_cons.2 ⟨hblank, ih hmore⟩
      case isFalse => cases hmore
    case _ =>
      simp only [Option.map_eq_some_iff, Prod.mk.injEq] at h
      obtain ⟨_, _, rfl, _⟩ := h
      exact List.forall_mem_nil _

theorem cut?_of_blanksThen? {blanks : Text} (hmark : ∃ c ∈ mark.head?, isBlank c = false)
    (h : blanksThen? mark t = some (blanks, after)) : Text.cut? mark t = some (blanks, after) := by
  rw [blanksThen?_eq_some h, List.append_assoc]
  exact Text.cut?_of_avoids (avoids_of_blanks hmark (blanks_of_blanksThen? h) _)

/-- After its first character an expression reaches to the first mark, but for the blanks before
    that. -/
theorem expressionThen?_of_cut? (hmark : ∃ c ∈ mark.head?, isBlank c = false) (c : Char)
    (h : Text.cut? mark t = some (before, after)) :
    ∃ body trail : Text, before = body ++ trail ∧
      expressionThen? mark (c :: t) = some (c :: body, trail, after) := by
  induction t generalizing c before with
  | nil =>
    have ht := Text.cut?_eq_some h
    rw [eq_comm, List.append_eq_nil_iff, List.append_eq_nil_iff] at ht
    obtain ⟨_, hm, _⟩ := hmark
    rw [ht.1.2] at hm
    cases hm
  | cons d t ih =>
    rw [expressionThen?]
    cases hblanks : blanksThen? mark (d :: t) with
    | some found =>
      obtain ⟨trail, after'⟩ := found
      rw [cut?_of_blanksThen? hmark hblanks] at h
      cases h
      exact ⟨[], _, rfl, rfl⟩
    | none =>
      rw [Text.cut?.eq_def] at h
      split at h
      case _ rest hstrip =>
        have hsome := blanksThen?_mark_isSome mark rest
        rw [← Text.stripPrefix?_eq_some hstrip, hblanks] at hsome
        cases hsome
      case _ =>
        simp only [Option.map_eq_some_iff, Prod.exists, Prod.mk.injEq] at h
        obtain ⟨b, a, hcut, rfl, rfl⟩ := h
        obtain ⟨body, trail, rfl, hexpression⟩ := ih d hcut
        exact ⟨d :: body, trail, rfl, by rw [hexpression]; rfl⟩

theorem expressionThen?_eq_none (h : Text.cut? mark t.tail = none) :
    expressionThen? mark t = none := by
  cases hexpression : expressionThen? mark t with
  | none => rfl
  | some found =>
    obtain ⟨expression, trail, after⟩ := found
    obtain ⟨c, body, rfl⟩ :=
      List.exists_cons_of_ne_nil (expression_ne_nil_of_expressionThen? hexpression)
    rw [expressionThen?_eq_some hexpression, Text.cut?_eq_none_iff] at h
    exact absurd ⟨body ++ trail, after, rfl⟩ h

/-- Of the blanks before the expression all are left out that can be. -/
theorem insideThen?_blanks {blanks expression trail : Text}
    (hblanks : ∀ c ∈ blanks, isBlank c = true) (ht : ∀ c ∈ t.head?, isBlank c = false)
    (h : expressionThen? mark t = some (expression, trail, after)) :
    insideThen? mark (blanks ++ t) = some (blanks, expression, trail, after) := by
  induction blanks with
  | nil =>
    cases t with
    | nil => cases h
    | cons c t => rw [List.nil_append, insideThen?, ht c rfl, h]; rfl
  | cons c blanks ih =>
    rw [List.forall_mem_cons] at hblanks
    rw [List.cons_append, insideThen?, hblanks.1, if_pos rfl, ih hblanks.2]

/-- Without a mark after its first character the text holds no expression. -/
theorem insideThen?_eq_none (ht : ∀ c ∈ t.head?, isBlank c = false)
    (h : Text.cut? mark t.tail = none) : insideThen? mark t = none := by
  cases t with
  | nil => rfl
  | cons c t =>
    rw [insideThen?, ht c rfl, expressionThen?_eq_none h]
    rfl

/-- The last of the blanks is the expression when only the mark itself comes after them. -/
theorem insideThen?_last_blank {lead : Text} {b : Char} (hlead : ∀ c ∈ lead, isBlank c = true)
    (hb : isBlank b = true) (ht : ∀ c ∈ (mark ++ after).head?, isBlank c = false)
    (h : Text.cut? mark (mark ++ after).tail = none) :
    insideThen? mark (lead ++ b :: (mark ++ after)) = some (lead, [b], [], after) := by
  induction lead with
  | nil =>
    have hclose : blanksThen? mark (mark ++ after) = some ([], after) :=
      blanksThen?_of_blanks (List.forall_mem_nil _) ht
    rw [List.nil_append, insideThen?, hb, if_pos rfl, insideThen?_eq_none ht h, expressionThen?,
      hclose]
    rfl
  | cons c lead ih =>
    rw [List.forall_mem_cons] at hlead
    rw [List.cons_append, insideThen?, hlead.1, if_pos rfl, ih hlead.2]

end

/-- Only blanks stand before the first mark of the text, and another begins after its first
    character. -/
def Overruns (mark t : Text) : Prop :=
  mark <+: Text.trimStart t ∧ mark <:+: (Text.trimStart t).tail

instance (mark t : Text) : Decidable (Overruns mark t) :=
  inferInstanceAs (Decidable (_ ∧ _))

section

variable {mark t lead expression trail after : Text}

theorem head?_trimStart (t : Text) : ∀ c ∈ (Text.trimStart t).head?, isBlank c = false := by
  intro c hc
  have := List.head?_dropWhile_not isBlank t
  unfold Text.trimStart at hc
  rw [Option.mem_def.1 hc] at this
  exact this

theorem takeWhile_append_trimStart (t : Text) : t.takeWhile isBlank ++ Text.trimStart t = t :=
  List.takeWhile_append_dropWhile

theorem all_takeWhile_isBlank (t : Text) : ∀ c ∈ t.takeWhile isBlank, isBlank c = true :=
  List.all_eq_true.1 List.all_takeWhile

/-- With a mark after the first character that is no blank, the expression starts there and
    reaches to that mark. -/
theorem insideThen?_of_tail {before : Text} (hmark : ∃ c ∈ mark.head?, isBlank c = false)
    (hcut : Text.cut? mark (Text.trimStart t).tail = some (before, after)) :
    ∃ c body trail, Text.trimStart t = c :: (body ++ trail ++ mark ++ after) ∧
      before = body ++ trail ∧
      insideThen? mark t = some (t.takeWhile isBlank, c :: body, trail, after) := by
  cases htrim : Text.trimStart t with
  | nil =>
    have htail := Text.cut?_eq_some hcut
    rw [htrim, List.tail_nil, eq_comm, List.append_eq_nil_iff, List.append_eq_nil_iff] at htail
    obtain ⟨_, hm, _⟩ := hmark
    rw [htail.1.2] at hm
    cases hm
  | cons c u =>
    rw [htrim, List.tail_cons] at hcut
    obtain ⟨body, trail, rfl, hexpression⟩ := expressionThen?_of_cut? hmark c hcut
    refine ⟨c, body, trail, by rw [Text.cut?_eq_some hcut], rfl, ?_⟩
    have hhead := head?_trimStart t
    rw [htrim] at hhead
    conv => lhs; rw [← takeWhile_append_trimStart t, htrim]
    exact insideThen?_blanks (all_takeWhile_isBlank t) hhead hexpression

theorem isPrefix_of_not_infix_tail (h : mark <:+: t) (htail : ¬ mark <:+: t.tail) : mark <+: t := by
  obtain ⟨before, after, rfl⟩ := h
  cases before with
  | nil => exact ⟨after, rfl⟩
  | cons c before => exact absurd ⟨before, after, rfl⟩ htail

/-- Unless the text overruns, the inside of a tag ends at the first mark. -/
theorem cut?_of_insideThen? (hmark : ∃ c ∈ mark.head?, isBlank c = false)
    (hover : ¬ Overruns mark t)
    (h : insideThen? mark t = some (lead, expression, trail, after)) :
    Text.cut? mark t = some (lead ++ expression ++ trail, after) := by
  have hblanks := avoids_of_blanks hmark (all_takeWhile_isBlank t) (Text.trimStart t)
  have hcut := Text.cut?_append_of_avoids hblanks
  rw [takeWhile_append_trimStart] at hcut
  cases htail : Text.cut? mark (Text.trimStart t).tail with
  | some found =>
    obtain ⟨before, after'⟩ := found
    obtain ⟨c, body, trail', htrim, rfl, hinside⟩ := insideThen?_of_tail hmark htail
    rw [hinside] at h
    cases h
    have hinfix : mark <:+: (Text.trimStart t).tail := ⟨_, _, (Text.cut?_eq_some htail).symm⟩
    have hhere : Text.stripPrefix? mark (Text.trimStart t) = none :=
      Text.stripPrefix?_eq_none_iff.2 fun hstarts => hover ⟨hstarts, hinfix⟩
    rw [htrim, List.tail_cons] at htail
    rw [htrim] at hhere
    rw [hcut, htrim, Text.cut?.eq_def, hhere]
    simp only [htail]
    rw [Option.map_some, Option.map_some, List.append_assoc, List.cons_append]
  | none =>
    -- An expression was found all the same: it is the last blank before the only mark.
    have hinfix : mark <:+: Text.trimStart t := by
      apply Classical.not_not.1
      intro hnone
      rw [Text.cut?_eq_none_iff.2 hnone, Option.map_none, Text.cut?_eq_none_iff] at hcut
      exact hcut ⟨lead ++ expression ++ trail, after, (insideThen?_eq_some h).symm⟩
    obtain ⟨rest, hstarts⟩ := isPrefix_of_not_infix_tail hinfix (Text.cut?_eq_none_iff.1 htail)
    have hhead := head?_trimStart t
    rw [← hstarts] at hhead htail
    rw [← takeWhile_append_trimStart t, ← hstarts] at h
    rcases List.eq_nil_or_concat (t.takeWhile isBlank) with hnil | ⟨front, b, hconcat⟩
    · rw [hnil, List.nil_append, insideThen?_eq_none hhead htail] at h
      cases h
    · have hall := all_takeWhile_isBlank t
      rw [List.concat_eq_append] at hconcat
      rw [hconcat] at hall h
      rw [List.append_assoc, List.singleton_append,
        insideThen?_last_blank (fun c hc => hall c (List.mem_append_left _ hc))
          (hall b List.mem_concat_self) hhead htail] at h
      cases h
      rw [hcut, ← hstarts, Text.cut?_mark_append, hconcat]
      simp only [Option.map_some, List.append_nil]

/-- Where the text overruns, the expression starts with the first mark and the tag ends at the
    next one. -/
theorem insideThen?_of_overruns (hmark : ∃ c ∈ mark.head?, isBlank c = false)
    (hover : Overruns mark t)
    (h : insideThen? mark t = some (lead, expression, trail, after)) :
    lead = t.takeWhile isBlank ∧ Text.trimStart t = expression ++ trail ++ mark ++ after ∧
      Text.cut? mark (Text.trimStart t).tail = some ((expression ++ trail).tail, after) := by
  obtain ⟨⟨before, after'⟩, hcut⟩ := Option.ne_none_iff_exists'.1
    fun hnone => Text.cut?_eq_none_iff.1 hnone hover.2
  obtain ⟨c, body, trail', htrim, rfl, hinside⟩ := insideThen?_of_tail hmark hcut
  rw [hinside] at h
  cases h
  exact ⟨rfl, htrim, hcut⟩

theorem not_infix_expression
    (h : Text.cut? mark t = some (lead ++ expression ++ trail, after)) (hne : mark ≠ []) :
    ¬ mark <:+: expression := by
  rintro ⟨front, back, rfl⟩
  have hfirst := Text.avoids_iff.1 (Text.avoids_of_cut?_eq_some h) (lead ++ front)
    (mark ++ (back ++ trail)) (by simp only [List.append_assoc])
  exact hfirst (fun hnil => hne (List.append_eq_nil_iff.1 hnil).1)
    ⟨_, (List.append_assoc mark (back ++ trail) _).symm⟩

/-- A tag ends at the first closing marker after its opening marker exactly if the text there
    does not overrun. -/
theorem cut?_insideThen?_iff (hmark : ∃ c ∈ mark.head?, isBlank c = false)
    (h : insideThen? mark t = some (lead, expression, trail, after)) :
    Text.cut? mark t = some (lead ++ expression ++ trail, after) ↔ ¬ Overruns mark t := by
  refine ⟨fun hfirst hover => ?_, fun hover => cut?_of_insideThen? hmark hover h⟩
  obtain ⟨hlead, htrim, -⟩ := insideThen?_of_overruns hmark hover h
  obtain ⟨rest, hrest⟩ := hover.1
  have hcut := Text.cut?_append_of_avoids
    (avoids_of_blanks hmark (all_takeWhile_isBlank t) (Text.trimStart t))
  rw [takeWhile_append_trimStart, hfirst, ← hrest, Text.cut?_mark_append, ← hlead] at hcut
  simp only [Option.map_some, List.append_nil, List.append_assoc, Option.some.injEq,
    Prod.mk.injEq, List.append_right_eq_self] at hcut
  exact expression_ne_nil_of_insideThen? h (List.append_eq_nil_iff.1 hcut.1).1

end

section

variable {markers : Markers} {t before rest : Text} {tag : EchoTag}

theorem insideThen?_of_tagFromOpening? {escaped : Bool}
    (h : markers.tagFromOpening? escaped t = some (tag, rest)) :
    insideThen? markers.closing (tag.inside ++ (markers.closing ++ (tag.lineBreak ++ rest))) =
      some (tag.lead, tag.expression, tag.trail, tag.lineBreak ++ rest) := by
  obtain ⟨u, -, hafter⟩ := Option.bind_eq_some_iff.1 h
  unfold tagAfterOpening? at hafter
  split at hafter
  case isTrue =>
    simp only [Option.map_eq_some_iff, Prod.exists, Prod.mk.injEq] at hafter
    obtain ⟨lead, expression, trail, after, hinside, rfl, rfl⟩ := hafter
    have hu := insideThen?_eq_some hinside
    rw [List.append_assoc] at hu
    rw [splitLineBreak_append, EchoTag.inside, ← hu, hinside]
  case isFalse => cases hafter

theorem insideThen?_of_nextTag? (h : markers.nextTag? t = some (before, tag, rest)) :
    insideThen? markers.closing (tag.inside ++ (markers.closing ++ (tag.lineBreak ++ rest))) =
      some (tag.lead, tag.expression, tag.trail, tag.lineBreak ++ rest) := by
  induction t generalizing before with
  | nil => cases h
  | cons c t ih =>
    unfold nextTag? at h
    split at h
    case _ htag =>
      cases h
      unfold tag? at htag
      split at htag
      case _ hescaped =>
        cases htag
        obtain ⟨_, -, hopening⟩ := Option.bind_eq_some_iff.1 hescaped
        exact insideThen?_of_tagFromOpening? hopening
      case _ => exact insideThen?_of_tagFromOpening? htag
    case _ =>
      simp only [Option.map_eq_some_iff, Prod.exists, Prod.mk.injEq] at h
      obtain ⟨_, _, _, hmore, -, rfl, rfl⟩ := h
      exact ih hmore

/-- Each tag of a text has the parts that are read after its opening marker. -/
theorem insideThen?_of_splitTags {last : Text} {left right : List (Text × EchoTag)}
    (h : markers.splitTags t = (left ++ (before, tag) :: right, last)) :
    insideThen? markers.closing
        (tag.inside ++ (markers.closing ++ (tag.lineBreak ++ markers.unsplitTags right last))) =
      some (tag.lead, tag.expression, tag.trail, tag.lineBreak ++ markers.unsplitTags right last) := by
  induction left generalizing t with
  | nil =>
    cases hnext : markers.nextTag? t with
    | none =>
      rw [splitTags_of_none hnext] at h
      cases h
    | some found =>
      obtain ⟨before', tag', rest⟩ := found
      rw [splitTags_of_some hnext, List.nil_append, Prod.mk.injEq, List.cons.injEq, Prod.mk.injEq] at h
      obtain ⟨⟨⟨rfl, rfl⟩, rfl⟩, rfl⟩ := h
      rw [unsplitTags_splitTags]
      exact insideThen?_of_nextTag? hnext
  | cons part left ih =>
    cases hnext : markers.nextTag? t with
    | none =>
      rw [splitTags_of_none hnext] at h
      cases h
    | some found =>
      obtain ⟨before', tag', rest⟩ := found
      rw [splitTags_of_some hnext, List.cons_append, Prod.mk.injEq, List.cons.injEq] at h
      exact ih (Prod.ext h.1.2 h.2)

/-- The tags behind some of the tags of a text are the tags of the text behind these. -/
theorem splitTags_right {last : Text} {left right : List (Text × EchoTag)}
    (h : markers.splitTags t = (left ++ right, last)) :
    markers.splitTags (markers.unsplitTags right last) = (right, last) := by
  induction left generalizing t with
  | nil =>
    have hsame := unsplitTags_splitTags markers t
    rw [h, List.nil_append] at hsame
    rw [hsame, h, List.nil_append]
  | cons part left ih =>
    cases hnext : markers.nextTag? t with
    | none =>
      rw [splitTags_of_none hnext] at h
      cases h
    | some found =>
      rw [splitTags_of_some hnext, List.cons_append, Prod.mk.injEq, List.cons.injEq] at h
      exact ih (Prod.ext h.1.2 h.2)

theorem splitTags_fst_eq_nil_iff : (markers.splitTags t).1 = [] ↔ markers.nextTag? t = none := by
  cases hnext : markers.nextTag? t with
  | none => simp only [splitTags_of_none hnext]
  | some found =>
    rw [splitTags_of_some hnext]
    simp only [reduceCtorEq]

/-- An empty tag, and everything behind it, is left alone exactly if no closing marker begins
    after the first character of its own. -/
theorem nextTag?_empty_iff {front after : Text} (hclosing : markers.closing ≠ [])
    (hfront : Text.Avoids (markers.opening <+: ·) front
      (markers.opening ++ (markers.closing ++ after))) :
    markers.nextTag? (front ++ (markers.opening ++ (markers.closing ++ after))) = none ↔
      ¬ markers.closing <:+: (markers.closing ++ after).tail := by
  obtain ⟨c, closing, hcons⟩ := List.exists_cons_of_ne_nil hclosing
  have htail : markers.closing ++ after = c :: (markers.closing ++ after).tail := by
    rw [hcons, List.cons_append, List.tail_cons]
  rw [nextTag?_eq_none_iff]
  constructor
  · rintro hnone ⟨inside, behind, hlater⟩
    have hinside : c :: inside = [] := hnone front (c :: inside) behind (by
      rw [htail, ← hlater, List.append_assoc, List.cons_append])
    cases hinside
  · intro hlater before inside behind hsame
    -- The tag would start at the empty tag or further on.
    obtain ⟨more, hmore⟩ : ∃ more, markers.opening ++ (markers.closing ++ after) =
        more ++ (markers.opening ++ (inside ++ (markers.closing ++ behind))) := by
      rcases List.append_eq_append_iff.1 hsame with ⟨more, -, hmore⟩ | ⟨more, hmore, hrest⟩
      · exact ⟨more, hmore⟩
      · cases more with
        | nil => exact ⟨[], by rw [hrest]; rfl⟩
        | cons d more =>
          exact absurd ⟨_, hrest⟩ (Text.avoids_iff.1 hfront before (d :: more) hmore nofun)
    apply Classical.byContradiction
    intro hinside
    have hbehind : markers.closing ++ behind <:+ markers.opening ++ (markers.closing ++ after) :=
      ⟨more ++ (markers.opening ++ inside), by rw [hmore]; simp only [List.append_assoc]⟩
    have hstart : (markers.closing ++ after).tail <:+ markers.opening ++ (markers.closing ++ after) :=
      (List.tail_suffix _).trans (List.suffix_append _ _)
    have hlength : (markers.closing ++ behind).length ≤ (markers.closing ++ after).tail.length := by
      have hlengths := congrArg List.length hmore
      have := List.length_pos_iff.2 hinside
      simp only [List.length_append, List.length_tail] at hlengths ⊢
      omega
    have hsuffix := List.suffix_of_suffix_length_le hbehind hstart hlength
    exact hlater ((List.prefix_append _ _).isInfix.trans hsuffix.isInfix)

end

end Template.Markers

namespace Template.EchoPasses

variable {passes : EchoPasses} {family : EchoFamily}

theorem rewriteTags_append (offset : Nat) (left right : List (Text × EchoTag)) (before last : Text)
    (tag : EchoTag) :
    ∃ start next, passes.rewriteTags family offset (left ++ (before, tag) :: right) last =
      passes.rewriteTags family offset left before ++
        passes.rewriteTag family start tag :: passes.rewriteTags family next right last := by
  induction left generalizing offset with
  | nil => exact ⟨_, _, rfl⟩
  | cons part left ih =>
    obtain ⟨before', tag'⟩ := part
    obtain ⟨start, next, hrest⟩ := ih (offset + Text.byteLength before' +
      Text.byteLength (tag'.source (passes.markers family)))
    refine ⟨start, next, ?_⟩
    simp only [List.cons_append, rewriteTags, hrest, List.append_assoc]

theorem standard_closing_head (family : EchoFamily) :
    ∃ c ∈ (standard.markers family).closing.head?, isBlank c = false := by
  cases family with
  | raw => exact ⟨'!', by decide, by decide⟩
  | escaped => exact ⟨'\x7d', by decide, by decide⟩
  | regular => exact ⟨'\x7d', by decide, by decide⟩

/-- In the default configuration code in the place of a tag stands for the text up to the first
    closing marker after its opening marker, exactly if that text does not overrun. If it does, the
    expression starts with that marker and the tag reaches to the next one that begins after its
    first character. From an empty tag on no tag is read, exactly if no closing marker begins
    after the first character of its own. -/
theorem standard_pass_ends (family : EchoFamily) (t : Text) (offset : Nat) :
    let markers := standard.markers family
    (∀ left before tag right last, markers.splitTags t = (left ++ (before, tag) :: right, last) →
      tag.escaped = false →
      let rest := tag.lineBreak ++ markers.unsplitTags right last
      let opened := tag.inside ++ (markers.closing ++ rest)
      t = markers.unsplitTags left before ++ (markers.opening ++ opened) ∧
        (∃ next, standard.pass family [.markup t offset] =
          standard.rewriteTags family offset left before ++
            .output (echoCode (standard.value family tag.expression) tag.lineBreak) ::
              standard.rewriteTags family next right last) ∧
        (Text.cut? markers.closing opened = some (tag.inside, rest) ↔
          ¬ Markers.Overruns markers.closing opened) ∧
        (¬ Markers.Overruns markers.closing opened → ¬ markers.closing <:+: tag.expression) ∧
        (Markers.Overruns markers.closing opened →
          tag.lead = opened.takeWhile isBlank ∧
            markers.closing <+: tag.expression ++ (tag.trail ++ (markers.closing ++ rest)) ∧
            Text.cut? markers.closing (Text.trimStart opened).tail =
              some ((tag.expression ++ tag.trail).tail, rest))) ∧
      ∀ left right last front after, markers.splitTags t = (left ++ right, last) →
        markers.unsplitTags right last = front ++ (markers.opening ++ (markers.closing ++ after)) →
        Text.Avoids (markers.opening <+: ·) front (markers.opening ++ (markers.closing ++ after)) →
        (right = [] ↔ ¬ markers.closing <:+: (markers.closing ++ after).tail) := by
  have hhead := standard_closing_head family
  have hclosing : (standard.markers family).closing ≠ [] := by
    obtain ⟨c, hc, -⟩ := hhead
    intro hnil
    rw [hnil] at hc
    cases hc
  refine ⟨fun left before tag right last hread hplain => ?_,
    fun left right last front after hread hrest hfront => ?_⟩
  · have hinside := Markers.insideThen?_of_splitTags hread
    obtain ⟨start, next, hpass⟩ :=
      @rewriteTags_append standard family offset left right before last tag
    refine ⟨?_, ⟨next, ?_⟩, Markers.cut?_insideThen?_iff hhead hinside, ?_, ?_⟩
    · rw [← (standard.markers family).unsplitTags_splitTags t, hread]
      simp [Markers.unsplitTags, EchoTag.source, EchoTag.unescaped, hplain]
    · rw [pass, List.flatMap_cons, List.flatMap_nil, List.append_nil, rewritePiece, hread]
      have hcode : standard.rewriteTag family start tag =
          .output (echoCode (standard.value family tag.expression) tag.lineBreak) :=
        if_neg (by rw [hplain]; exact Bool.false_ne_true)
      rw [hcode] at hpass
      exact hpass
    · intro hover
      exact Markers.not_infix_expression (Markers.cut?_of_insideThen? hhead hover hinside) hclosing
    · intro hover
      obtain ⟨hlead, htrim, hcut⟩ := Markers.insideThen?_of_overruns hhead hover hinside
      refine ⟨hlead, ?_, hcut⟩
      have hstarts := hover.1
      rw [htrim] at hstarts
      simpa only [List.append_assoc] using hstarts
  · have hright := Markers.splitTags_right hread
    rw [hrest] at hright
    rw [← Markers.nextTag?_empty_iff hclosing hfront, ← Markers.splitTags_fst_eq_nil_iff, hright]

/-- An echo tag, with an empty one behind it. -/
def echoThenEmpty : Text := "a \x7b\x7b $x \x7d\x7d \x7b\x7b\x7d\x7d".toList

theorem standard_pass_ends_echoThenEmpty :
    standard.regular.splitTags echoThenEmpty =
        ([("a ".toList, ⟨false, [' '], "$x".toList, [' '], []⟩)], " \x7b\x7b\x7d\x7d".toList) ∧
      Text.cut? standard.regular.closing " $x \x7d\x7d \x7b\x7b\x7d\x7d".toList =
        some (" $x ".toList, " \x7b\x7b\x7d\x7d".toList) ∧
      ¬ standard.regular.closing <:+: (standard.regular.closing ++ []).tail := by
  have hread : standard.regular.splitTags echoThenEmpty =
      ([("a ".toList, ⟨false, [' '], "$x".toList, [' '], []⟩)], " \x7b\x7b\x7d\x7d".toList) := by
    decide +kernel
  have hover : ¬ Markers.Overruns standard.regular.closing
      " $x \x7d\x7d \x7b\x7b\x7d\x7d".toList := by decide +kernel
  have hfront : Text.Avoids (standard.regular.opening <+: ·) [' ']
      (standard.regular.opening ++ (standard.regular.closing ++ [])) := ⟨by decide, trivial⟩
  obtain ⟨htags, hempty⟩ := standard_pass_ends .regular echoThenEmpty 0
  obtain ⟨-, -, hfirst, -⟩ := htags [] _ _ [] _ hread rfl
  exact ⟨hread, hfirst.2 hover, (hempty [_] [] _ [' '] [] hread rfl hfront).1 rfl⟩

/-- An empty tag, with an echo tag behind it. -/
def emptyThenEcho : Text := "\x7b\x7b\x7d\x7d \x7b\x7b $x \x7d\x7d".toList

/-- Here the empty tag and the one behind it are read as one. -/
theorem standard_pass_merges :
    standard.regular.splitTags emptyThenEcho =
        ([([], ⟨false, [], "\x7d\x7d \x7b\x7b $x".toList, [' '], []⟩)], []) ∧
      standard.regular.closing <:+: "\x7d\x7d \x7b\x7b $x".toList ∧
      (Transpiler.standard .builtins).render emptyThenEcho =
        .ok "<?php echo e(\x7d\x7d \x7b\x7b $x); ?>".toList ∧
      (Transpiler.standard .builtins).render emptyThenEcho ≠
        .ok "\x7b\x7b\x7d\x7d <?php echo e($x); ?>".toList := by
  have hrender : (Transpiler.standard .builtins).render emptyThenEcho =
      .ok "<?php echo e(\x7d\x7d \x7b\x7b $x); ?>".toList := by decide +kernel
  refine ⟨by decide +kernel, by decide +kernel, hrender, ?_⟩
  rw [hrender]
  intro h
  have hne : "<?php echo e(\x7d\x7d \x7b\x7b $x); ?>".toList ≠
      "\x7b\x7b\x7d\x7d <?php echo e($x); ?>".toList := by decide
  exact hne (Except.ok.inj h)

end Template.EchoPasses
