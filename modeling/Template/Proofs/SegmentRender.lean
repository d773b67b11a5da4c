import Template.Proofs.Comment
import Template.Proofs.SegmentEcho
import Template.Proofs.SegmentMark

/-! # Rendering segments

A template of well-formed segments is rendered segment by segment. Each step of a run takes the
segments of its own kind out, and passes on a text that is again one of segments: native code
first, then comments, then directives, and echo tags last.
-/

namespace Template

open EchoPasses (Settles)
open Markers (standardComments)

theorem Registry.carryOutTag_of_writes {registry : Registry} {answers : Answers}
    {name argument output : Text} (start : Nat) (spacing : Text) (context : Context)
    (h : registry.Writes answers name argument output) :
    registry.carryOutTag answers start ⟨false, name, spacing, .given argument⟩ context =
      (.ok [.output output], context) := by
  obtain ⟨handler, hfind, hrun⟩ := h
  have hcall : registry.carryOutTag answers start ⟨false, name, spacing, .given argument⟩ = (do
      let output ← (handler (some argument)).run answers registry.names
      pure [.output output]) := by
    simp only [Registry.carryOutTag, Bool.false_eq_true, if_false, hfind]
  rw [hcall, Run.bind_apply_ok (hrun context)]
  rfl

namespace Segments

section

variable {registry : Registry} {answers : Answers} {outputs : Outputs} {run segments : List Segment}
  {previous : Option Char} {name spacing argument rest t : Text}

theorem avoids_directive (hrun : ∀ s ∈ run, s.WellFormed ∧ s.isComment = false ∧ s.isNative = false)
    (hnone : ∀ s ∈ run, s.isDirective = false) (t : Text) :
    Text.Avoids (fun u => DirectiveTag.tag? none u ≠ none) (source run) t := by
  refine avoids_source (fun s hs t => ?_) t
  obtain ⟨hwell, hcomment, hnative⟩ := hrun s hs
  exact Segment.avoids_directive hwell hcomment hnative (hnone s hs) t

/-- A run without directives is all text to the search for them. -/
theorem next?_source_eq_none (previous : Option Char)
    (hrun : ∀ s ∈ run, s.WellFormed ∧ s.isComment = false ∧ s.isNative = false)
    (hnone : ∀ s ∈ run, s.isDirective = false) : DirectiveTag.next? previous (source run) = none := by
  have hnext := DirectiveTag.next?_append_of_avoids previous (avoids_directive hrun hnone [])
  rwa [List.append_nil] at hnext

/-- The first directive tag of a text is the first directive among its segments. -/
theorem next?_source (hrun : ∀ s ∈ run, s.WellFormed ∧ s.isComment = false ∧ s.isNative = false)
    (hnone : ∀ s ∈ run, s.isDirective = false) (hwell : (Segment.directive name spacing argument).WellFormed)
    (hfits : ((source run).getLast?.or previous).any isWord = false) :
    DirectiveTag.next? previous
        (source run ++ ((Segment.directive name spacing argument).source ++ rest)) =
      some (source run, ⟨false, name, spacing, .given (parenthesized argument)⟩, rest) := by
  obtain ⟨hname, hword, hspacing, hparen, -, -⟩ := hwell
  have hread : DirectiveTag.fromIntroducer? false
      (directiveIntroducer ++ (name ++ (spacing ++ (parenthesized argument ++ rest)))) =
        some (⟨false, name, spacing, .given (parenthesized argument)⟩, rest) :=
    DirectiveTag.fromIntroducer?_of_parts hname hword hspacing (Text.group?_of_matchingParen? hparen)
  have htag := DirectiveTag.tag?_false_of_fromIntroducer? hfits hread
  rw [DirectiveTag.next?_append_of_avoids previous (avoids_directive hrun hnone _)]
  simp only [Segment.source, List.append_assoc]
  rw [DirectiveTag.next?_of_tag? htag]
  simp only [Option.map_some, List.append_nil]

/-- The echo passes make the output of a run of text and tags. -/
theorem settles_source (offset : Nat)
    (hrun : ∀ s ∈ run, s.WellFormed ∧ s.isComment = false ∧ s.isNative = false)
    (hnone : ∀ s ∈ run, s.isDirective = false) (hplaced : Placed none run) :
    Settles EchoPasses.families (Piece.ofMarkup (source run) offset) (rendered outputs run) := by
  refine settlesRuns_families outputs run offset (fun s hs => ?_) hplaced
  obtain ⟨hwell, hcomment, hnative⟩ := hrun s hs
  have hdirective := hnone s hs
  refine ⟨hwell, ?_⟩
  cases s with
  | text => trivial
  | echo own | literal own => exact EchoPasses.mem_families own
  | comment => cases hcomment
  | directive => cases hdirective
  | native => cases hnative

/-- Directives are carried out, and the echo passes make the output of what is left. -/
theorem carryOut_source (segments : List Segment) :
    ∀ previous offset context, (∀ s ∈ segments, s.WellFormed ∧ s.isComment = false ∧ s.isNative = false) →
      (∀ s ∈ segments, s.Writes registry answers outputs) → Placed previous segments →
      ∃ pieces, registry.carryOut answers offset (DirectiveTag.splitAfter previous (source segments)).1
          (DirectiveTag.splitAfter previous (source segments)).2 context = (.ok pieces, context) ∧
        Settles EchoPasses.families pieces (rendered outputs segments) := by
  induction segments using first_induction Segment.isDirective with
  | none run hnone =>
    intro previous offset context hrun _ hplaced
    rw [DirectiveTag.splitAfter_of_none (next?_source_eq_none previous hrun hnone)]
    exact ⟨_, rfl, settles_source offset hrun hnone hplaced.start⟩
  | first run segment rest hnone hsegment ih =>
    intro previous offset context hall hwrites hplaced
    obtain ⟨hrun, hlist⟩ := List.forall_mem_append.1 hall
    obtain ⟨⟨hwell, -, -⟩, hrest⟩ := List.forall_mem_cons.1 hlist
    obtain ⟨-, hwriteslist⟩ := List.forall_mem_append.1 hwrites
    obtain ⟨hwrite, hwritesrest⟩ := List.forall_mem_cons.1 hwriteslist
    obtain ⟨hbefore, hfits, hafter⟩ := hplaced.append
    have hkept : kept run = source run := kept_eq_source fun s hs => (hrun s hs).2.1
    cases segment with
    | directive name spacing argument =>
      rw [hkept] at hfits
      rw [source_append, source_cons, rendered_append, rendered_cons,
        DirectiveTag.splitAfter_of_some (next?_source hrun hnone hwell hfits)]
      let tag : DirectiveTag := ⟨false, name, spacing, .given (parenthesized argument)⟩
      have hlast : (Segment.directive name spacing argument).kept.getLast? = tag.source.getLast? := by
        simp [tag, Segment.kept, Segment.source, DirectiveTag.source, DirectiveTag.unescaped,
          DirectiveArgument.text?]
      have hplacedrest : Placed tag.source.getLast? rest := by
        rw [hlast] at hafter
        rwa [List.getLast?_eq_some_getLast (DirectiveTag.source_ne_nil tag)] at hafter ⊢
      obtain ⟨pieces, hcarry, hpieces⟩ := ih rest rfl tag.source.getLast?
        (offset + Text.byteLength (source run) + Text.byteLength tag.source) context hrest hwritesrest
        hplacedrest
      have hhere := Registry.carryOutTag_of_writes (offset + Text.byteLength (source run)) spacing context
        hwrite
      refine ⟨Piece.ofMarkup (source run) offset ++
        [.output (outputs name (parenthesized argument))] ++ pieces, ?_, ?_⟩
      · rw [Registry.carryOut, Run.bind_apply_ok hhere, Run.bind_apply_ok hcarry]
        rfl
      · rw [List.append_assoc]
        exact (settles_source offset hrun hnone hbefore.start).append
          ((EchoPasses.settles_output _).append hpieces)
    | text | echo | literal | comment | native => cases hsegment

/-- Without native code among them, the comments of the segments are dropped. -/
theorem stripComments_source (segments : List Segment) :
    ∀ offset, (∀ s ∈ segments, s.WellFormed ∧ s.isNative = false) →
      standardComments.stripComments offset (source segments) = .ok (kept segments) := by
  have havoids : ∀ run : List Segment, (∀ s ∈ run, s.WellFormed ∧ s.isNative = false) →
      (∀ s ∈ run, s.isComment = false) → ∀ t, Text.Avoids (standardComments.opening <+: ·) (source run) t := by
    intro run hrun hnone
    exact avoids_source fun s hs => Segment.avoids_comment (hrun s hs).1 (hnone s hs) (hrun s hs).2
  induction segments using first_induction Segment.isComment with
  | none run hnone =>
    intro offset hrun
    have hcut := Text.cut?_append_of_avoids (havoids run hrun hnone [])
    rw [List.append_nil] at hcut
    rw [Markers.stripComments_of_cut?_eq_none hcut, kept_eq_source hnone]
  | first run segment rest hnone hsegment ih =>
    intro offset hall
    obtain ⟨hrun, hlist⟩ := List.forall_mem_append.1 hall
    obtain ⟨⟨hwell, -⟩, hrest⟩ := List.forall_mem_cons.1 hlist
    cases segment with
    | comment inside =>
      obtain ⟨next, hstrip⟩ := Markers.stripComments_comment offset
        (havoids run hrun hnone _) (Segment.avoids_closing_comment hwell (source rest))
      rw [source_append, source_cons, Segment.source, List.append_assoc, List.append_assoc, hstrip,
        ih rest rfl next hrest, kept_append, kept_cons, kept_eq_source hnone]
      rfl
    | text | echo | literal | directive | native => cases hsegment

/-- Markup of segments becomes the output of the segments. -/
theorem renderMarkup_source (context : Context)
    (hwell : ∀ s ∈ segments, s.WellFormed ∧ s.isNative = false)
    (hwrites : ∀ s ∈ segments, s.Writes registry answers outputs) (hplaced : Placed none segments) :
    (Transpiler.standard registry).renderMarkup answers (source segments) context =
      (.ok (rendered outputs segments), context) := by
  have hkept : ∀ s ∈ withoutComments segments,
      s.WellFormed ∧ s.isComment = false ∧ s.isNative = false := by
    intro s hs
    obtain ⟨hmem, hcomment⟩ := List.mem_filter.1 hs
    exact ⟨(hwell s hmem).1, by simpa using hcomment, (hwell s hmem).2⟩
  obtain ⟨pieces, hcarry, hsettles⟩ := carryOut_source (withoutComments segments) none context.offset context
    hkept (fun s hs => hwrites s (List.mem_filter.1 hs).1) hplaced.withoutComments
  rw [source_withoutComments] at hcarry
  rw [rendered_withoutComments] at hsettles
  have hstrip : (Transpiler.standard registry).comments.stripComments context.offset (source segments) =
      .ok (kept segments) := stripComments_source segments context.offset hwell
  have hdirectives : (Transpiler.standard registry).directives.carryOut answers context.offset
      (DirectiveTag.split (kept segments)).1 (DirectiveTag.split (kept segments)).2 context =
        (.ok pieces, context) := hcarry
  have hechoes : (Transpiler.standard registry).echoes.transpilePieces pieces =
      .ok (rendered outputs segments) := EchoPasses.transpilePieces_of_settles hsettles
  rw [Transpiler.renderMarkup_apply rfl, hstrip]
  dsimp only
  rw [hdirectives]
  dsimp only
  rw [hechoes]

theorem avoids_opensCode (hwell : ∀ s ∈ run, s.WellFormed) (hnone : ∀ s ∈ run, s.isNative = false) (t : Text) :
    Text.Avoids (opensCode · = true) (source run) t :=
  avoids_source (fun s hs => Segment.avoids_opensCode (hwell s hs) (hnone s hs)) t

theorem nextCode?_source_eq_none (hwell : ∀ s ∈ run, s.WellFormed) (hnone : ∀ s ∈ run, s.isNative = false) :
    nextCode? (source run) = none := by
  have hnext := nextCode?_append_of_avoids (avoids_opensCode hwell hnone [])
  rwa [List.append_nil] at hnext

/-- The first native code of a text is the first among its segments. A line break that it takes
    along is missing from the segments after it. -/
theorem nextCode?_source {code : Text} {later : List Segment} (hwell : ∀ s ∈ run, s.WellFormed)
    (hnone : ∀ s ∈ run, s.isNative = false) (hcode : IsNativeCode code) (hlater : ∀ s ∈ later, s.WellFormed) :
    ∃ (lineBreak : Text) (left : List Segment),
      nextCode? (source run ++ (code ++ source later)) = some (source run, code ++ lineBreak, source left) ∧
      left.length = later.length ∧
      (∀ outputs, rendered outputs later = lineBreak ++ rendered outputs left) ∧
      Leaves later left ∧ ∀ previous, Placed previous later → Placed none left := by
  obtain ⟨lineBreak, after, hhead, hcases⟩ := hcode.nextCode?_append_eq (source later)
  have hnext := nextCode?_append_of_avoids (avoids_opensCode hwell hnone (code ++ source later))
  rw [hhead, Option.map_some] at hnext
  dsimp only at hnext
  rw [List.append_nil] at hnext
  rcases hcases with hcases | hcases
  · obtain ⟨rfl, rfl⟩ := Prod.mk.inj hcases
    exact ⟨[], later, hnext, rfl, fun _ => rfl, fun _ _ hall => hall, fun _ h => h.start⟩
  · have hbreak : lineBreak = (splitLineBreak (source later)).1 := congrArg Prod.fst hcases
    have hafter : after = (splitLineBreak (source later)).2 := congrArg Prod.snd hcases
    obtain ⟨left, hlength, hsource, hrendered, hleaves, hplaced⟩ := exists_after_lineBreak hlater
    rw [hbreak, hafter, ← hsource] at hnext
    exact ⟨_, left, hnext, hlength, hrendered, hleaves, hplaced⟩

end

end Segments

namespace Transpiler

section

variable {transpiler : Transpiler} {registry : Registry} {answers : Answers} {outputs : Outputs}
  {spans : List Span} {t code out later : Text} {offset : Nat}

/-- From every state the spans give the output, and leave the footer as it is. -/
def Renders (transpiler : Transpiler) (answers : Answers) (spans : List Span) (out : Text) : Prop :=
  ∀ context, ∃ after, transpiler.renderSpans answers spans context = (.ok out, after) ∧
    after.footer = context.footer

theorem Renders.nil : transpiler.Renders answers [] [] := fun context => ⟨context, rfl, rfl⟩

theorem Renders.native (h : transpiler.Renders answers spans later) :
    transpiler.Renders answers (⟨.native, code, offset⟩ :: spans) (code ++ later) := by
  intro context
  obtain ⟨after, hlater, hfooter⟩ := h context
  refine ⟨after, ?_, hfooter⟩
  rw [renderSpans_native, Run.bind_apply_ok hlater]
  rfl

/-- A span of markup that is rendered changes no more than the place of the span. -/
theorem Renders.markup
    (hmarkup : ∀ context, (standard registry).renderMarkup answers t context = (.ok out, context))
    (h : (standard registry).Renders answers spans later) :
    (standard registry).Renders answers (Span.markup t offset ++ spans) (out ++ later) := by
  by_cases ht : t = []
  case pos =>
    subst ht
    have hnil : (standard registry).renderMarkup answers (Segments.source []) .start =
        (.ok (Segments.rendered (fun _ _ => []) []), .start) :=
      Segments.renderMarkup_source .start (by simp) (by simp) trivial
    rw [Segments.source_nil] at hnil
    rw [hmarkup] at hnil
    cases hnil
    exact h
  case neg =>
    intro context
    obtain ⟨after, hlater, hfooter⟩ := h { context with offset := offset }
    refine ⟨after, ?_, hfooter⟩
    rw [Span.markup, if_neg ht, List.singleton_append, renderSpans_markup,
      Run.bind_apply_ok (hmarkup _), Run.bind_apply_ok hlater]
    rfl

/-- The spans of a template of segments give the output of the segments. -/
theorem renders_source (segments : List Segment) :
    ∀ offset, (∀ s ∈ segments, s.WellFormed) → (∀ s ∈ segments, s.Writes registry answers outputs) →
      Segments.Placed none segments →
      (standard registry).Renders answers (Span.ofTextAt offset (Segments.source segments))
        (Segments.rendered outputs segments) := by
  have hmarkup : ∀ run : List Segment, (∀ s ∈ run, s.WellFormed) → (∀ s ∈ run, s.isNative = false) →
      (∀ s ∈ run, s.Writes registry answers outputs) → Segments.Placed none run →
        ∀ context, (standard registry).renderMarkup answers (Segments.source run) context =
          (.ok (Segments.rendered outputs run), context) :=
    fun run hwell hnone hwrites hplaced context =>
      Segments.renderMarkup_source context (fun s hs => ⟨hwell s hs, hnone s hs⟩) hwrites hplaced
  induction segments using Segments.first_induction Segment.isNative with
  | none run hnone =>
    intro offset hwell hwrites hplaced
    rw [Span.ofTextAt_of_none (Segments.nextCode?_source_eq_none hwell hnone),
      ← List.append_nil (Span.markup _ _), ← List.append_nil (Segments.rendered outputs run)]
    exact Renders.markup (hmarkup run hwell hnone hwrites hplaced) Renders.nil
  | first run segment rest hnone hsegment ih =>
    intro offset hwell hwrites hplaced
    obtain ⟨hwellrun, hwelllist⟩ := List.forall_mem_append.1 hwell
    obtain ⟨hcode, hwellrest⟩ := List.forall_mem_cons.1 hwelllist
    obtain ⟨hwritesrun, hwriteslist⟩ := List.forall_mem_append.1 hwrites
    obtain ⟨-, hwritesrest⟩ := List.forall_mem_cons.1 hwriteslist
    obtain ⟨hplacedrun, -, hplacedrest⟩ := hplaced.append
    cases segment with
    | native code =>
      obtain ⟨lineBreak, later, hnext, hlength, hrendered, hleaves, hplacedlater⟩ :=
        Segments.nextCode?_source hwellrun hnone hcode hwellrest
      rw [Segments.source_append, Segments.source_cons, Segment.source, Span.ofTextAt_of_some hnext,
        Segments.rendered_append, Segments.rendered_cons, Segment.rendered, hrendered,
        ← List.append_assoc code]
      refine Renders.markup (hmarkup run hwellrun hnone hwritesrun hplacedrun) (Renders.native ?_)
      exact ih later hlength _ (hleaves _ Segment.WellFormed.text_of_suffix hwellrest)
        (hleaves _ (fun _ _ _ _ => trivial) hwritesrest) (hplacedlater _ hplacedrest)
    | text | echo | literal | comment | directive => cases hsegment

/-- A template of well-formed segments, each where it fits, is rendered segment by segment. -/
theorem render_segments (registry : Registry) (outputs : Outputs) (segments : List Segment)
    (hwell : ∀ s ∈ segments, s.WellFormed) (hplaced : Segments.Placed none segments)
    (hwrites : ∀ s ∈ segments, s.Writes registry
      ((standard registry).answersAt (nestingLimit (Segments.source segments))) outputs) :
    (standard registry).render (Segments.source segments) = .ok (Segments.rendered outputs segments) := by
  obtain ⟨after, hspans, hfooter⟩ := renders_source segments 0 hwell hwrites hplaced .start
  exact renderWith_of_ok hspans hfooter

end

/-- A page with segments of every kind. -/
def pageSegments : List Segment :=
  [.text "<h1>a < b ".toList,
    .comment " \x7b\x7b draft \x7d\x7d ".toList,
    .echo .regular " ".toList "$title".toList " ".toList "\n".toList,
    .text "</h1>".toList,
    .native "<?php start() ?>\n".toList,
    .directive "if".toList " ".toList "$on && f(')')".toList,
    .echo .raw " ".toList "$html".toList [] [],
    .comment [],
    .literal .escaped " ".toList "$name".toList " ".toList,
    .text "\n".toList,
    .echo .escaped "\t".toList "$a['b']".toList " ".toList [],
    .directive "endif".toList [] [],
    .native "<?= 1 ?>".toList,
    .text "\n<p>".toList]

/-- What the directives of the page write. -/
def pageOutputs : Outputs := fun name argument =>
  if name = "if".toList then "<?php if".toList ++ argument ++ ": ?>".toList else "<?php endif; ?>".toList

theorem render_segments_page : (∀ s ∈ pageSegments, s.WellFormed) ∧ Segments.Placed none pageSegments ∧
    Segments.source pageSegments =
      ("<h1>a < b \x7b\x7b-- \x7b\x7b draft \x7d\x7d --\x7d\x7d\x7b\x7b $title \x7d\x7d\n</h1>" ++
        "<?php start() ?>\n<@if ($on && f(')'))\x7b!! $html!!\x7d\x7b\x7b----\x7d\x7d" ++
        "@\x7b\x7b\x7b $name \x7d\x7d\x7d\n\x7b\x7b\x7b\t$a['b'] \x7d\x7d\x7d<@endif()<?= 1 ?>\n<p>").toList ∧
    (standard .builtins).render (Segments.source pageSegments) =
      .ok ("<h1>a < b <?php echo e($title); ?>\n\n</h1><?php start() ?>\n<?php if($on && f(')')): ?>" ++
        "<?php echo $html; ?>\x7b\x7b\x7b $name \x7d\x7d\x7d\n<?php echo e($a['b']); ?>" ++
        "<?php endif; ?><?= 1 ?>\n<p>").toList := by
  have hwell : ∀ s ∈ pageSegments, s.WellFormed := by decide +kernel
  have hplaced : Segments.Placed none pageSegments := by decide +kernel
  have hwrites : ∀ s ∈ pageSegments, s.Writes .builtins
      ((standard .builtins).answersAt (nestingLimit (Segments.source pageSegments))) pageOutputs := by
    simp only [pageSegments, List.forall_mem_cons, Segment.Writes, true_and]
    exact ⟨⟨_, rfl, fun _ => rfl⟩, ⟨_, rfl, fun _ => rfl⟩, by simp⟩
  have hrender := render_segments .builtins pageOutputs pageSegments hwell hplaced hwrites
  exact ⟨hwell, hplaced, by decide +kernel, hrender.trans (by decide +kernel)⟩

end Transpiler

end Template
