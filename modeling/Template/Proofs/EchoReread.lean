import Template.Proofs.CommentErased
import Template.Proofs.SegmentRender

/-! # Echo tags read again

The output of a template can be read as a template again. The code in the place of each echo tag is
then one native span, which takes the line break after it: that is the one that was written twice. So
what is left as markup is the template without its echo tags.
-/

namespace Template

/-- The mode in which native code stands after a text that does not come to a closing mark. -/
def modeAfter? (mode : CodeMode) : Text → Option CodeMode
  | [] => some mode
  | c :: t =>
    match mode.step c t.head? with
    | .close => none
    | .one next => modeAfter? next t
    | .two next =>
      match t with
      | [] => some next
      | _ :: t => modeAfter? next t

section

variable {mode next : CodeMode} {c d : Char} {s t expression : Text}

/-- A character that is the second one of no mark makes no difference to the step before it. -/
theorem step_of_plain (hd : d ≠ '>' ∧ d ≠ '/' ∧ d ≠ '*') : mode.step c (some d) = mode.step c none := by
  cases mode <;> simp [CodeMode.step, hd]

/-- Text that ends where it began in code is read as it would be alone. -/
theorem takes_of_modeAfter? (h : modeAfter? mode s = some .code) (hd : d ≠ '>' ∧ d ≠ '/' ∧ d ≠ '*') (t : Text) :
    Takes mode s .code (d :: t) := by
  fun_induction modeAfter? mode s with
  | case1 mode =>
    cases h
    exact .nil
  | case2 => cases h
  | case3 mode c s next hstep ih =>
    refine Takes.append (s := [c]) (.one ?_) (ih h)
    cases s with
    | nil => rw [← hstep]; exact step_of_plain hd
    | cons e s => exact hstep
  | case4 mode c next hstep =>
    -- Only a backslash in quotes takes two characters where there is but one.
    cases h
    cases mode <;> grind [CodeMode.step]
  | case5 mode c next e s hstep ih => exact Takes.append (s := [c, e]) (.two hstep) (ih h)

theorem takes_plain (hs : s.all (· ∉ ['?', '\'', '"', '#', '/']) = true) : Takes .code s .code t := by
  induction s with
  | nil => exact .nil
  | cons c s ih =>
    rw [List.all_cons, Bool.and_eq_true, decide_eq_true_eq] at hs
    refine Takes.append (s := [c]) (.one ?_) (ih hs.2)
    have hc := hs.1
    simp only [List.mem_cons, List.not_mem_nil, or_false, not_or] at hc
    simp [CodeMode.step, hc]

/-- A line break that is all of one is taken whole, whatever follows it. -/
theorem splitLineBreak_lineBreak {lineBreak : Text}
    (hlineBreak : lineBreak = [] ∨ lineBreak = ['\n'] ∨ lineBreak = ['\r', '\n'])
    (ht : lineBreak = [] → (splitLineBreak t).1 = []) : splitLineBreak (lineBreak ++ t) = (lineBreak, t) := by
  rcases hlineBreak with rfl | rfl | rfl
  · have hnone := ht rfl
    have happend := splitLineBreak_append t
    rw [hnone, List.nil_append] at happend
    exact Prod.ext hnone happend
  · rfl
  · rfl

/-- A text that starts with no line break starts with none when another character follows it. -/
theorem splitLineBreak_fst_append_cons (hs : (splitLineBreak s).1 = []) (hd : d ≠ '\r' ∧ d ≠ '\n') (t : Text) :
    (splitLineBreak (s ++ d :: t)).1 = [] := by
  unfold splitLineBreak
  split
  case _ u htext =>
    match s with
    | [] => exact absurd (List.cons.inj htext).1 hd.1
    | [_] => exact absurd (List.cons.inj (List.cons.inj htext).2).1 hd.2
    | c :: e :: s =>
      obtain ⟨rfl, hrest⟩ := List.cons.inj htext
      obtain ⟨rfl, -⟩ := List.cons.inj hrest
      cases hs
  case _ u htext =>
    match s with
    | [] => exact absurd (List.cons.inj htext).1 hd.2
    | c :: s =>
      obtain ⟨rfl, -⟩ := List.cons.inj htext
      cases hs
  case _ => rfl

theorem takes_shown (family : EchoFamily) (h : modeAfter? .code expression = some .code) (t : Text) :
    Takes .code (family.shown expression) .code (';' :: t) := by
  have hparenthesized : Takes .code ("e(".toList ++ expression ++ ")".toList) .code (';' :: t) := by
    have hopen : Takes .code "e(".toList .code (expression ++ (')' :: ';' :: t)) := takes_plain (by decide)
    have hinside := takes_of_modeAfter? h (d := ')') (by decide) (';' :: t)
    have hclose : Takes .code ")".toList .code (';' :: t) := takes_plain (by decide)
    exact (hopen.append hinside).append hclose
  cases family with
  | raw => exact takes_of_modeAfter? h (by decide) t
  | escaped | regular => exact hparenthesized

theorem splitCode_shown (family : EchoFamily) (h : modeAfter? .code expression = some .code) {lineBreak : Text}
    (hlineBreak : lineBreak = [] ∨ lineBreak = ['\n'] ∨ lineBreak = ['\r', '\n'])
    (ht : lineBreak = [] → (splitLineBreak t).1 = []) :
    splitCode .code ("php echo ".toList ++ family.shown expression ++ "; ?>".toList ++ (lineBreak ++ (lineBreak ++ t))) =
      ("php echo ".toList ++ family.shown expression ++ "; ?>".toList ++ lineBreak, lineBreak ++ t) := by
  have hopen : Takes .code "php echo ".toList .code
      (family.shown expression ++ ("; ".toList ++ ('?' :: '>' :: (lineBreak ++ (lineBreak ++ t))))) :=
    takes_plain (by decide)
  have hshown := takes_shown family h (" ".toList ++ ('?' :: '>' :: (lineBreak ++ (lineBreak ++ t))))
  have hend : Takes .code "; ".toList .code ('?' :: '>' :: (lineBreak ++ (lineBreak ++ t))) :=
    takes_plain (by decide)
  have hclose : splitCode .code ('?' :: '>' :: (lineBreak ++ (lineBreak ++ t))) =
      ('?' :: '>' :: lineBreak, lineBreak ++ t) := by
    rw [splitCode_of_close rfl, List.drop_succ_cons, List.drop_zero,
      splitLineBreak_lineBreak hlineBreak (fun hnil => by rw [hnil]; exact ht hnil)]
    rfl
  have htakes := (hopen.append hshown).append hend
  unfold Takes at htakes
  rw [hclose] at htakes
  simpa using htakes

theorem echoMark_append (u : Text) : "<?php echo ".toList ++ u = '<' :: '?' :: ("php echo ".toList ++ u) := by
  have hmark : "<?php echo ".toList = '<' :: '?' :: "php echo ".toList := by decide
  exact congrArg (· ++ u) hmark

theorem opensCode_echoMark (u : Text) : opensCode ('<' :: '?' :: ("php echo ".toList ++ u)) = true := by
  have hname : "php echo ".toList = ['p', 'h', 'p'] ++ ' ' :: "echo ".toList := by decide
  refine opensCode_iff.2 (.inr ⟨['p', 'h', 'p'], ' ' :: ("echo ".toList ++ u), ?_, by decide, ?_⟩)
  · exact congrArg (fun mark => '<' :: '?' :: (mark ++ u)) hname
  · rintro c ⟨⟩
    decide

/-- Behind text in which no code opens, the output of an echo tag is the next native code. -/
theorem nextCode?_rendered (outputs : Outputs) (family : EchoFamily) (h : modeAfter? .code expression = some .code)
    {lead trail lineBreak : Text} (hlineBreak : lineBreak = [] ∨ lineBreak = ['\n'] ∨ lineBreak = ['\r', '\n'])
    (ht : lineBreak = [] → (splitLineBreak t).1 = [])
    (hs : ∀ u, Text.Avoids (opensCode · = true) s u) :
    nextCode? (s ++ ((Segment.echo family lead expression trail lineBreak).rendered outputs ++ t)) =
      some (s, echoSpan family expression lineBreak, lineBreak ++ t) := by
  have hcode : (Segment.echo family lead expression trail lineBreak).rendered outputs ++ t = "<?php echo ".toList ++
      (family.shown expression ++ ("; ?>".toList ++ (lineBreak ++ (lineBreak ++ t)))) := by
    unfold Segment.rendered echoSpan
    simp only [List.append_assoc]
  have hspan : echoSpan family expression lineBreak =
      "<?php echo ".toList ++ (family.shown expression ++ ("; ?>".toList ++ lineBreak)) := by
    unfold echoSpan
    simp only [List.append_assoc]
  have hsplit := splitCode_shown family h hlineBreak ht
  simp only [List.append_assoc] at hsplit
  rw [nextCode?_append_of_avoids (hs _), hcode, hspan, echoMark_append, echoMark_append,
    nextCode?_of_opensCode (opensCode_echoMark _) hsplit]
  simp only [Option.map_some, List.append_nil]

end

namespace Segment

/-- The segment is text, or an echo tag whose expression is whole code: read as code it comes to no
    closing mark, and ends in code. -/
def IsWholeCode : Segment → Prop
  | text _ => True
  | echo _ _ expression _ _ => modeAfter? .code expression = some .code
  | _ => False

instance : DecidablePred IsWholeCode
  | text _ => inferInstanceAs (Decidable True)
  | echo _ _ expression _ _ => inferInstanceAs (Decidable (modeAfter? .code expression = some .code))
  | literal _ _ _ _ | comment _ | directive _ _ _ | native _ => inferInstanceAs (Decidable False)

/-- The native span of an echo tag. -/
def span? : Segment → Option Text
  | echo family _ expression _ lineBreak => some (echoSpan family expression lineBreak)
  | _ => none

/-- What is left of a segment without its tag: the line break behind an echo tag stays. -/
def untagged : Segment → Text
  | echo _ _ _ _ lineBreak => lineBreak
  | segment => segment.source

end Segment

namespace Span

/-- The native spans among the spans, as text. -/
def nativeTexts (spans : List Span) : List Text := (spans.filter fun span => !span.isMarkup).map Span.text

/-- The spans of markup, put together. -/
def markupText (spans : List Span) : Text := (spans.filter Span.isMarkup).flatMap Span.text

section

variable {t code : Text} {offset : Nat} {spans : List Span}

@[simp] theorem nativeTexts_native : nativeTexts (⟨.native, code, offset⟩ :: spans) = code :: nativeTexts spans := rfl

@[simp] theorem markupText_native : markupText (⟨.native, code, offset⟩ :: spans) = markupText spans := rfl

@[simp] theorem nativeTexts_markup : nativeTexts (markup t offset ++ spans) = nativeTexts spans := by
  unfold markup
  split <;> rfl

@[simp] theorem markupText_markup : markupText (markup t offset ++ spans) = t ++ markupText spans := by
  unfold markup
  split
  case isTrue ht => rw [ht]; rfl
  case isFalse => rfl

end

end Span

namespace Segments

variable {outputs : Outputs} {segments : List Segment}

/-- A line break that does not come to stand at the head of a template does not in its output. -/
theorem splitLineBreak_rendered (hcode : ∀ s ∈ segments, s.IsWholeCode) (front : Text)
    (h : (splitLineBreak (front ++ source segments)).1 = []) :
    (splitLineBreak (front ++ rendered outputs segments)).1 = [] := by
  induction segments generalizing front with
  | nil => exact h
  | cons segment segments ih =>
    rw [List.forall_mem_cons] at hcode
    rw [source_cons] at h
    rw [rendered_cons]
    cases segment with
    | text written =>
      rw [← List.append_assoc] at h ⊢
      exact ih hcode.2 (front ++ written) h
    | echo family lead expression trail lineBreak =>
      -- The code for the tag begins with no line break, as the tag itself does.
      have hfront := splitLineBreak_fst_of_append h
      obtain ⟨rest, hrest⟩ : ∃ rest, (Segment.echo family lead expression trail lineBreak).rendered outputs ++
          rendered outputs segments = '<' :: rest := by
        unfold Segment.rendered echoSpan
        exact ⟨_, by simp only [List.append_assoc]; exact echoMark_append _⟩
      rw [hrest]
      exact splitLineBreak_fst_append_cons hfront (by decide) rest
    | literal | comment | directive | native => exact hcode.1.elim

theorem kept_eq_source_of_isWholeCode {segments : List Segment} (hcode : ∀ s ∈ segments, s.IsWholeCode) :
    kept segments = source segments := by
  refine kept_eq_source fun s hs => ?_
  cases s with
  | text | echo => rfl
  | literal | comment | directive | native => exact (hcode _ hs).elim

/-- Behind text in which no code opens, the output of segments is cut at its echo tags. -/
theorem spans_rendered (segments : List Segment) :
    ∀ offset front, (∀ u, Text.Avoids (opensCode · = true) front u) → (∀ s ∈ segments, s.WellFormed) →
      (∀ s ∈ segments, s.IsWholeCode) → Placed none segments →
      Span.nativeTexts (Span.ofTextAt offset (front ++ rendered outputs segments)) =
          segments.filterMap Segment.span? ∧
        Span.markupText (Span.ofTextAt offset (front ++ rendered outputs segments)) =
          front ++ segments.flatMap Segment.untagged := by
  induction segments with
  | nil =>
    intro offset front hfront _ _ _
    have hnone : nextCode? (front ++ []) = none := by
      rw [nextCode?_append_of_avoids (hfront _)]
      rfl
    rw [rendered_nil, Span.ofTextAt_of_none hnone, ← List.append_nil (Span.markup _ _), Span.nativeTexts_markup,
      Span.markupText_markup, List.append_nil]
    exact ⟨rfl, rfl⟩
  | cons segment segments ih =>
    intro offset front hfront hwell hcode hplaced
    rw [List.forall_mem_cons] at hwell hcode
    rw [rendered_cons, List.flatMap_cons]
    cases segment with
    | text written =>
      have hboth : ∀ u, Text.Avoids (opensCode · = true) (front ++ written) u := fun u =>
        Text.avoids_append.2 ⟨hfront _, Segment.avoids_opensCode hwell.1 rfl u⟩
      rw [← List.append_assoc front, ← List.append_assoc front]
      exact ih offset (front ++ written) hboth hwell.2 hcode.2 hplaced.2.start
    | echo family lead expression trail lineBreak =>
      have hlineBreak := hwell.1.2
      have hnone : lineBreak = [] → (splitLineBreak (rendered outputs segments)).1 = [] := by
        intro hnil
        have hfits := hplaced.1 hnil
        rw [kept_eq_source_of_isWholeCode hcode.2] at hfits
        exact splitLineBreak_rendered hcode.2 [] hfits
      have hbreak : ∀ u, Text.Avoids (opensCode · = true) lineBreak u :=
        avoids_opensCode_of_not_mem (Segment.not_mem_lineBreak (by decide) hlineBreak)
      obtain ⟨hnative, hmarkup⟩ := ih _ lineBreak hbreak hwell.2 hcode.2 hplaced.2.start
      rw [Span.ofTextAt_of_some (nextCode?_rendered outputs family hcode.1 hlineBreak hnone hfront),
        Span.nativeTexts_markup, Span.markupText_markup, Span.nativeTexts_native, Span.markupText_native,
        hnative, hmarkup]
      exact ⟨rfl, rfl⟩
    | literal | comment | directive | native => exact hcode.1.elim

end Segments

namespace Transpiler

/-- The output of text and echo tags, cut into spans: each echo tag is one native span, and the
    markup is the template without its tags. -/
theorem render_reread (registry : Registry) (segments : List Segment) (hwell : ∀ s ∈ segments, s.WellFormed)
    (hcode : ∀ s ∈ segments, s.IsWholeCode) (hplaced : Segments.Placed none segments) :
    ∃ out, (standard registry).render (Segments.source segments) = .ok out ∧
      Span.nativeTexts (Span.ofText out) = segments.filterMap Segment.span? ∧
      Span.markupText (Span.ofText out) = segments.flatMap Segment.untagged := by
  have hwrites : ∀ s ∈ segments, s.Writes registry
      ((standard registry).answersAt (nestingLimit (Segments.source segments))) (fun _ _ => []) := by
    intro s hs
    cases s with
    | text | echo => trivial
    | literal | comment | directive | native => exact (hcode _ hs).elim
  obtain ⟨after, hspans, hfooter⟩ := renders_source segments 0 hwell hwrites hplaced .start
  exact ⟨_, renderWith_of_ok hspans hfooter, Segments.spans_rendered segments 0 [] (fun _ => trivial) hwell hcode
    hplaced⟩

/-- A list with an echo tag of each family. Closing marks stand in its expressions, where they close
    nothing. -/
def listSegments : List Segment :=
  [.text "<ul>\n".toList,
    .echo .regular " ".toList "$a['?>']".toList " ".toList "\n".toList,
    .echo .raw "\t".toList "$b /* ?> */ ?? ''".toList [] [],
    .text "<li>".toList,
    .echo .escaped " ".toList "c(\"\\\"?>\")".toList " ".toList "\r\n".toList,
    .text "\n</ul>".toList]

theorem render_reread_list : (∀ s ∈ listSegments, s.WellFormed) ∧ (∀ s ∈ listSegments, s.IsWholeCode) ∧
    Segments.Placed none listSegments ∧
    ∃ out, (standard .builtins).render (Segments.source listSegments) = .ok out ∧
      Span.nativeTexts (Span.ofText out) = ["<?php echo e($a['?>']); ?>\n".toList,
        "<?php echo $b /* ?> */ ?? ''; ?>".toList, "<?php echo e(c(\"\\\"?>\")); ?>\r\n".toList] ∧
      Span.markupText (Span.ofText out) = "<ul>\n\n<li>\r\n\n</ul>".toList := by
  have hwell : ∀ s ∈ listSegments, s.WellFormed := by decide +kernel
  have hcode : ∀ s ∈ listSegments, s.IsWholeCode := by decide +kernel
  have hplaced : Segments.Placed none listSegments := by decide +kernel
  obtain ⟨out, hout, hnative, hmarkup⟩ := render_reread .builtins listSegments hwell hcode hplaced
  exact ⟨hwell, hcode, hplaced, out, hout, hnative.trans (by decide +kernel), hmarkup.trans (by decide +kernel)⟩

end Transpiler

end Template
