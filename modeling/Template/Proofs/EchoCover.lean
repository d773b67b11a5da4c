import Template.Proofs.CommentReading
import Template.Proofs.EchoCut
import Template.Proofs.EchoEnd
import Template.Proofs.Place

/-! # What the echo passes keep

A text is made up of the tags that the three passes read in it and of the text between them. The passes put
something else in the place of each tag and keep the rest. In between, what is still markup stands in the
text where its offset says, piece after piece.
-/

namespace Template

/-- The parts of a tag are what the pattern of a family captures: blanks around an expression that is not
    empty, and at most one line break. -/
structure EchoTag.Captured (tag : EchoTag) : Prop where
  lead : ∀ c ∈ tag.lead, isBlank c = true
  expression : tag.expression ≠ []
  trail : ∀ c ∈ tag.trail, isBlank c = true
  lineBreak : tag.lineBreak = [] ∨ tag.lineBreak = ['\n'] ∨ tag.lineBreak = ['\r', '\n']

namespace Markers

section

variable {markers : Markers} {mark t before after rest lead expression trail : Text} {tag : EchoTag}
  {escaped : Bool}

theorem blanks_of_expressionThen? (h : expressionThen? mark t = some (expression, trail, after)) :
    ∀ c ∈ trail, isBlank c = true := by
  induction t generalizing expression with
  | nil => cases h
  | cons c t ih =>
    unfold expressionThen? at h
    split at h
    case _ hblanks =>
      cases h
      exact blanks_of_blanksThen? hblanks
    case _ =>
      simp only [Option.map_eq_some_iff, Prod.exists, Prod.mk.injEq] at h
      obtain ⟨_, _, _, hmore, -, rfl, rfl⟩ := h
      exact ih hmore

theorem blanks_of_insideThen? (h : insideThen? mark t = some (lead, expression, trail, after)) :
    (∀ c ∈ lead, isBlank c = true) ∧ ∀ c ∈ trail, isBlank c = true := by
  induction t generalizing lead with
  | nil => cases h
  | cons c t ih =>
    unfold insideThen? at h
    split at h
    case _ hmore =>
      cases h
      split at hmore
      case isTrue hblank =>
        obtain ⟨hlead, htrail⟩ := ih hmore
        exact ⟨List.forall_mem_cons.2 ⟨hblank, hlead⟩, htrail⟩
      case isFalse => cases hmore
    case _ =>
      simp only [Option.map_eq_some_iff, Prod.exists, Prod.mk.injEq] at h
      obtain ⟨_, _, _, hmore, rfl, -, rfl, -⟩ := h
      exact ⟨List.forall_mem_nil _, blanks_of_expressionThen? hmore⟩

theorem captured_of_tagFromOpening? (h : markers.tagFromOpening? escaped t = some (tag, rest)) :
    tag.Captured := by
  obtain ⟨u, -, hafter⟩ := Option.bind_eq_some_iff.1 h
  unfold tagAfterOpening? at hafter
  split at hafter
  case isTrue =>
    simp only [Option.map_eq_some_iff, Prod.exists, Prod.mk.injEq] at hafter
    obtain ⟨lead, expression, trail, after, hinside, rfl, -⟩ := hafter
    obtain ⟨hlead, htrail⟩ := blanks_of_insideThen? hinside
    exact ⟨hlead, expression_ne_nil_of_insideThen? hinside, htrail, splitLineBreak_fst_cases after⟩
  case isFalse => cases hafter

theorem captured_of_tag? (h : markers.tag? t = some (tag, rest)) : tag.Captured := by
  unfold tag? at h
  split at h
  case _ hescaped =>
    cases h
    obtain ⟨u, -, hopening⟩ := Option.bind_eq_some_iff.1 hescaped
    exact captured_of_tagFromOpening? hopening
  case _ => exact captured_of_tagFromOpening? h

/-- The first tag of a text is read where it stands. -/
theorem tag?_of_nextTag? (h : markers.nextTag? t = some (before, tag, rest)) :
    markers.tag? (tag.source markers ++ rest) = some (tag, rest) := by
  induction t generalizing before with
  | nil => cases h
  | cons c t ih =>
    cases htag : markers.tag? (c :: t) with
    | some found =>
      rw [nextTag?, htag] at h
      cases h
      rw [← tag?_eq_some htag, htag]
    | none =>
      rw [nextTag?_cons c t htag] at h
      simp only [Option.map_eq_some_iff, Prod.exists, Prod.mk.injEq] at h
      obtain ⟨_, _, _, hmore, -, rfl, rfl⟩ := h
      exact ih hmore

end

end Markers

/-- The value that a family echoes for an expression, with the first placeholder of the format replaced. -/
inductive IsEchoValue (format : Text) : EchoFamily → (expression value : Text) → Prop where
  | raw {expression : Text} : IsEchoValue format .raw expression expression
  | escaped {expression : Text} :
      IsEchoValue format .escaped expression ("e(".toList ++ expression ++ ")".toList)
  | regular {expression before after : Text} (hplaceholder : Text.IsFirst echoPlaceholder format before after) :
      IsEchoValue format .regular expression (before ++ expression ++ after)

/-- What stands for a tag in the end: the tag without its escape marker, or code that echoes its value. -/
inductive EchoTag.Becomes (markers : Markers) (format : Text) (family : EchoFamily) (tag : EchoTag) : Text → Prop where
  | literal {result : Text} (hescaped : tag.escaped = true) (hfamily : family ≠ .escaped)
      (hresult : tag.source markers = escapeMarker :: result) : Becomes markers format family tag result
  | code {value : Text} (hescaped : tag.escaped = false) (hvalue : IsEchoValue format family tag.expression value) :
      Becomes markers format family tag
        ("<?php echo ".toList ++ value ++ "; ?>".toList ++ tag.lineBreak ++ tag.lineBreak)

/-- The output is the text with tags replaced: each as one of the families reads it, together with some of
    the text after it. -/
inductive EchoPasses.Replaces (passes : EchoPasses) (format : Text) : (text output : Text) → Prop where
  | nil : Replaces passes format [] []
  | keep {text output : Text} (kept : Text) (h : Replaces passes format text output) :
      Replaces passes format (kept ++ text) (kept ++ output)
  | replace {text output behind result : Text} {family : EchoFamily} {tag : EchoTag}
      (hread : (passes.markers family).tag? (tag.source (passes.markers family) ++ behind) = some (tag, behind))
      (hbehind : behind <+: text) (hcaptured : tag.Captured)
      (hbecomes : tag.Becomes (passes.markers family) format family result)
      (h : Replaces passes format text output) :
      Replaces passes format (tag.source (passes.markers family) ++ text) (result ++ output)

/-- The markup among the pieces stands in a text that begins at byte position `offset`: no piece of it is
    empty, each has its place, and each begins after the end of those before. -/
structure Piece.InOrder (whole : Text) (offset : Nat) (pieces : List Piece) : Prop where
  nonempty : ∀ markup ∈ markups pieces, markup.1 ≠ []
  stands : ∀ p ∈ pieces, p.StandsIn whole offset
  ordered : (markups pieces).Pairwise fun markup later => markup.2 + Text.byteLength markup.1 ≤ later.2

namespace Piece.InOrder

variable {whole text : Text} {place : Nat} {pieces : List Piece}

theorem nil (place : Nat) : InOrder [] place [] where
  nonempty := by simp [markups]
  stands := by simp
  ordered := by simp [markups]

theorem append_ofMarkup (h : InOrder whole (place + Text.byteLength text) pieces) :
    InOrder (text ++ whole) place (ofMarkup text place ++ pieces) := by
  have hstands : ∀ p ∈ pieces, p.StandsIn (text ++ whole) place := by
    intro p hp
    exact (h.stands p hp).append_left text
  by_cases htext : text = []
  · subst htext
    exact h
  · simp only [ofMarkup, htext, if_false]
    refine ⟨?_, ?_, ?_⟩
    · exact List.forall_mem_cons.2 ⟨htext, h.nonempty⟩
    · exact List.forall_mem_cons.2 ⟨standsIn_self.append_right whole, hstands⟩
    · refine List.pairwise_cons.2 ⟨?_, h.ordered⟩
      rintro ⟨later, start⟩ hlater
      obtain ⟨front, back, -, hstart⟩ := h.stands _ (mem_markups.1 hlater)
      dsimp only
      omega

theorem output_cons {before : Text} (h : InOrder whole (place + Text.byteLength before) pieces) (text : Text) :
    InOrder (before ++ whole) place (.output text :: pieces) where
  nonempty := h.nonempty
  stands := by
    refine List.forall_mem_cons.2 ⟨trivial, ?_⟩
    intro p hp
    exact (h.stands p hp).append_left before
  ordered := h.ordered

end Piece.InOrder

theorem EchoPasses.isEchoValue_value (passes : EchoPasses) {before after : Text}
    (hplaceholder : Text.IsFirst echoPlaceholder passes.format before after) (family : EchoFamily)
    (expression : Text) : IsEchoValue passes.format family expression (passes.value family expression) := by
  cases family with
  | raw => exact .raw
  | escaped => exact .escaped
  | regular =>
    simp only [value, Text.replaceFirst, Text.cut?_eq_some_iff.2 hplaceholder]
    exact .regular hplaceholder

/-- A stretch of a text in the passes: text that is kept, or a tag that was read. -/
inductive EchoPart where
  | kept (text : Text)
  | echo (family : EchoFamily) (tag : EchoTag)
  deriving DecidableEq, Repr

namespace EchoPart

def source (passes : EchoPasses) : EchoPart → Text
  | kept text => text
  | echo family tag => tag.source (passes.markers family)

/-- What the passes put in the place of the part. -/
def result (passes : EchoPasses) : EchoPart → Text
  | kept text => text
  | echo family tag =>
    if tag.escaped then tag.unescaped (passes.markers family)
    else echoCode (passes.value family tag.expression) tag.lineBreak

/-- The text that parts were read from. -/
def sources (passes : EchoPasses) (parts : List EchoPart) : Text := parts.flatMap (source passes)

def results (passes : EchoPasses) (parts : List EchoPart) : Text := parts.flatMap (result passes)

/-- Parts as pieces, from a byte position on. -/
def placed (passes : EchoPasses) : Nat → List EchoPart → List Piece
  | _, [] => []
  | place, .kept text :: parts => Piece.ofMarkup text place ++ placed passes (place + Text.byteLength text) parts
  | place, .echo family tag :: parts =>
    .output ((EchoPart.echo family tag).result passes) ::
      placed passes (place + Text.byteLength (tag.source (passes.markers family))) parts

/-- A tag that a pass reads. The escaped family leaves a tag behind the escape marker as text. -/
def ofTag (passes : EchoPasses) (family : EchoFamily) (tag : EchoTag) : EchoPart :=
  if tag.escaped = true ∧ family = .escaped then .kept (tag.source (passes.markers family)) else .echo family tag

def ofTags (passes : EchoPasses) (family : EchoFamily) : List (Text × EchoTag) → (last : Text) → List EchoPart
  | [], last => [.kept last]
  | (before, tag) :: tags, last => .kept before :: ofTag passes family tag :: ofTags passes family tags last

/-- The parts that a pass makes of a part. -/
def recut (passes : EchoPasses) (family : EchoFamily) : EchoPart → List EchoPart
  | kept text =>
    ofTags passes family ((passes.markers family).splitTags text).1 ((passes.markers family).splitTags text).2
  | echo own tag => [.echo own tag]

/-- Each tag is read where it stands, with the text behind it up to the end of some piece. -/
inductive Read (passes : EchoPasses) : List EchoPart → Prop where
  | nil : Read passes []
  | kept {parts : List EchoPart} (text : Text) (h : Read passes parts) : Read passes (.kept text :: parts)
  | echo {parts : List EchoPart} {family : EchoFamily} {tag : EchoTag} {behind : Text}
      (hread : (passes.markers family).tag? (tag.source (passes.markers family) ++ behind) = some (tag, behind))
      (hbehind : behind <+: sources passes parts) (hfamily : tag.escaped = true → family ≠ .escaped)
      (h : Read passes parts) : Read passes (.echo family tag :: parts)

section

variable {passes : EchoPasses} {family : EchoFamily} {parts more : List EchoPart} {place : Nat}

@[simp] theorem source_kept (text : Text) : (kept text).source passes = text := rfl

@[simp] theorem source_echo (tag : EchoTag) :
    (echo family tag).source passes = tag.source (passes.markers family) := rfl

@[simp] theorem sources_nil : sources passes [] = [] := rfl

@[simp] theorem sources_cons (part : EchoPart) (parts : List EchoPart) :
    sources passes (part :: parts) = part.source passes ++ sources passes parts := rfl

@[simp] theorem sources_append (parts more : List EchoPart) :
    sources passes (parts ++ more) = sources passes parts ++ sources passes more := by
  simp [sources]

@[simp] theorem source_ofTag (tag : EchoTag) :
    (ofTag passes family tag).source passes = tag.source (passes.markers family) := by
  unfold ofTag
  split <;> rfl

theorem sources_ofTags (tags : List (Text × EchoTag)) (last : Text) :
    sources passes (ofTags passes family tags last) = (passes.markers family).unsplitTags tags last := by
  induction tags with
  | nil => simp [ofTags, Markers.unsplitTags]
  | cons part tags ih =>
    obtain ⟨before, tag⟩ := part
    simp [ofTags, ih]

@[simp] theorem sources_recut (part : EchoPart) : sources passes (part.recut passes family) = part.source passes := by
  cases part with
  | kept text =>
    simp only [recut, sources_ofTags]
    exact Markers.unsplitTags_splitTags _ text
  | echo => simp [recut]

theorem sources_flatMap_recut (parts : List EchoPart) :
    sources passes (parts.flatMap (recut passes family)) = sources passes parts := by
  induction parts with
  | nil => rfl
  | cons part parts ih => simp [ih]

theorem placed_append (parts more : List EchoPart) (place : Nat) :
    placed passes place (parts ++ more) =
      placed passes place parts ++ placed passes (place + Text.byteLength (sources passes parts)) more := by
  induction parts generalizing place with
  | nil => simp [placed]
  | cons part parts ih => cases part <;> simp [placed, ih, Nat.add_assoc]

theorem joined_placed (parts : List EchoPart) (place : Nat) :
    Piece.joined (placed passes place parts) = results passes parts := by
  induction parts generalizing place with
  | nil => rfl
  | cons part parts ih => cases part <;> simp [placed, ih, results, result, Piece.text]

theorem rewriteTag_eq_placed (tag : EchoTag) (parts : List EchoPart) :
    passes.rewriteTag family place tag ::
        placed passes (place + Text.byteLength (tag.source (passes.markers family))) parts =
      placed passes place (ofTag passes family tag :: parts) := by
  have hsource : tag.source (passes.markers family) ≠ [] := Markers.source_ne_nil _ tag
  cases hescaped : tag.escaped with
  | false => simp [ofTag, EchoPasses.rewriteTag, hescaped, placed, result]
  | true =>
    cases family with
    | escaped =>
      simp only [EchoPasses.markers] at hsource
      simp [ofTag, EchoPasses.rewriteTag, hescaped, placed, Piece.ofMarkup, EchoPasses.markers, hsource]
    | raw | regular => simp [ofTag, EchoPasses.rewriteTag, hescaped, placed, result]

theorem rewriteTags_eq_placed (tags : List (Text × EchoTag)) (last : Text) (place : Nat) :
    passes.rewriteTags family place tags last = placed passes place (ofTags passes family tags last) := by
  induction tags generalizing place with
  | nil => simp [EchoPasses.rewriteTags, ofTags, placed]
  | cons part tags ih =>
    obtain ⟨before, tag⟩ := part
    simp only [EchoPasses.rewriteTags, ofTags, ih, rewriteTag_eq_placed]
    rfl

/-- A pass over parts in their places gives parts in their places. -/
theorem pass_placed (parts : List EchoPart) (place : Nat) :
    passes.pass family (placed passes place parts) =
      placed passes place (parts.flatMap (recut passes family)) := by
  induction parts generalizing place with
  | nil => rfl
  | cons part parts ih =>
    simp only [List.flatMap_cons, placed_append, sources_recut, ← ih]
    cases part with
    | kept text =>
      simp only [placed, EchoPasses.pass_append, EchoPasses.pass_ofMarkup, rewriteTags_eq_placed]
      rfl
    | echo => simp [placed, recut]

theorem Read.append_ofTags (h : Read passes more) (text : Text) :
    Read passes (ofTags passes family ((passes.markers family).splitTags text).1
      ((passes.markers family).splitTags text).2 ++ more) := by
  fun_induction Markers.splitTags (passes.markers family) text with
  | case1 text => exact .kept text h
  | case2 text before tag rest hnext tags last hsplit ih =>
    rw [hsplit] at ih
    have hbehind : rest <+: sources passes (ofTags passes family tags last ++ more) := by
      have hrest := (passes.markers family).unsplitTags_splitTags rest
      rw [hsplit] at hrest
      rw [sources_append, sources_ofTags, hrest]
      exact List.prefix_append _ _
    refine .kept before ?_
    rw [ofTag]
    split
    · exact .kept _ ih
    case _ hwhole =>
      exact .echo (Markers.tag?_of_nextTag? hnext) hbehind (fun hescaped hfamily => hwhole ⟨hescaped, hfamily⟩) ih

/-- After a pass each tag is still read where it stands. -/
theorem Read.flatMap_recut (h : Read passes parts) : Read passes (parts.flatMap (recut passes family)) := by
  induction h with
  | nil => exact .nil
  | kept text _ ih => exact ih.append_ofTags text
  | echo hread hbehind hfamily _ ih =>
    rw [← @sources_flatMap_recut passes family] at hbehind
    exact .echo hread hbehind hfamily ih

theorem inOrder_placed (parts : List EchoPart) (place : Nat) :
    Piece.InOrder (sources passes parts) place (placed passes place parts) := by
  induction parts generalizing place with
  | nil => exact .nil place
  | cons part parts ih =>
    cases part with
    | kept text => exact (ih _).append_ofMarkup
    | echo family tag => exact (ih _).output_cons _

/-- In the end each tag that was read has become what the passes put in its place. -/
theorem Read.replaces {before after : Text} (h : Read passes parts)
    (hplaceholder : Text.IsFirst echoPlaceholder passes.format before after) :
    passes.Replaces passes.format (sources passes parts) (results passes parts) := by
  induction h with
  | nil => exact .nil
  | kept text _ ih => exact .keep text ih
  | @echo parts family tag behind hread hbehind hfamily _ ih =>
    refine .replace hread hbehind (Markers.captured_of_tag? hread) ?_ ih
    cases hescaped : tag.escaped with
    | true =>
      simp only [result, hescaped, if_true]
      refine .literal hescaped (hfamily hescaped) ?_
      simp [EchoTag.source, hescaped]
    | false =>
      simp only [result, hescaped, Bool.false_eq_true, if_false]
      exact .code hescaped (passes.isEchoValue_value hplaceholder family tag.expression)

end

end EchoPart

/-- The pieces are parts of a text that begins at byte position `offset`, and each tag among them is read
    where it stands. -/
def Piece.ArePartsOf (passes : EchoPasses) (text : Text) (offset : Nat) (pieces : List Piece) : Prop :=
  ∃ parts, EchoPart.sources passes parts = text ∧ EchoPart.Read passes parts ∧
    pieces = EchoPart.placed passes offset parts

namespace Piece.ArePartsOf

variable {passes : EchoPasses} {text before after : Text} {offset : Nat} {pieces : List Piece}

theorem pass_markup (passes : EchoPasses) (family : EchoFamily) (text : Text) (offset : Nat) :
    ArePartsOf passes text offset (passes.pass family [.markup text offset]) := by
  refine ⟨[EchoPart.kept text].flatMap (EchoPart.recut passes family), ?_, ?_, ?_⟩
  · simp
  · exact (EchoPart.Read.kept text .nil).flatMap_recut
  · simp only [EchoPasses.pass, List.flatMap_cons, List.flatMap_nil, List.append_nil]
    exact EchoPart.rewriteTags_eq_placed _ _ offset

theorem pass (h : ArePartsOf passes text offset pieces) (family : EchoFamily) :
    ArePartsOf passes text offset (passes.pass family pieces) := by
  obtain ⟨parts, hsources, hread, rfl⟩ := h
  refine ⟨parts.flatMap (EchoPart.recut passes family), ?_, hread.flatMap_recut, ?_⟩
  · rw [EchoPart.sources_flatMap_recut, hsources]
  · exact EchoPart.pass_placed parts offset

theorem inOrder (h : ArePartsOf passes text offset pieces) : InOrder text offset pieces := by
  obtain ⟨parts, rfl, -, rfl⟩ := h
  exact EchoPart.inOrder_placed parts offset

theorem replaces (h : ArePartsOf passes text offset pieces)
    (hplaceholder : Text.IsFirst echoPlaceholder passes.format before after) :
    passes.Replaces passes.format text (joined pieces) := by
  obtain ⟨parts, rfl, hread, rfl⟩ := h
  rw [EchoPart.joined_placed]
  exact hread.replaces hplaceholder

end Piece.ArePartsOf

namespace EchoPasses

section

variable {limit : Markers.Limit} {config : Config} {passes : EchoPasses}

/-- The passes are made from the configuration. -/
theorem eq_of_build (h : build limit config = .ok passes) :
    passes.format = config.echoFormat ∧
      ∀ family, config.tags? family.kind = some (passes.markers family).pair := by
  unfold build at h
  cases hraw : Markers.build limit .rawEcho config.rawTags with
  | error => simp [hraw, bind, Except.bind] at h
  | ok raw =>
    cases hescaped : Markers.build limit .escapedEcho config.escapedTags with
    | error => simp [hraw, hescaped, bind, Except.bind] at h
    | ok escaped =>
      cases hregular : Markers.build limit .regularEcho config.contentTags with
      | error => simp [hraw, hescaped, hregular, bind, Except.bind] at h
      | ok regular =>
        simp only [hraw, hescaped, hregular, bind, Except.bind, pure, Except.pure, Except.ok.injEq] at h
        subst h
        refine ⟨rfl, ?_⟩
        intro family
        cases family with
        | raw => exact congrArg some (Markers.pair_of_build hraw).symm
        | escaped => exact congrArg some (Markers.pair_of_build hescaped).symm
        | regular => exact congrArg some (Markers.pair_of_build hregular).symm

/-- The echo format of a valid configuration has a placeholder. -/
theorem exists_isFirst_placeholder (hvalid : config.validate = .ok ()) :
    ∃ before after, Text.IsFirst echoPlaceholder config.echoFormat before after := by
  have hcontains : Text.contains echoPlaceholder config.echoFormat = true := by
    unfold Config.validate Config.fault? at hvalid
    grind
  obtain ⟨⟨before, after⟩, hcut⟩ := Option.isSome_iff_exists.1 hcontains
  exact ⟨before, after, Text.cut?_eq_some_iff.1 hcut⟩

/-- In every valid configuration what the passes write is the text with its tags replaced. After each pass
    the markup that is left stands in the text in order. -/
theorem transpile_replaces (hvalid : config.validate = .ok ()) (hbuild : build limit config = .ok passes)
    (text : Text) (offset : Nat) :
    (∀ family, config.tags? family.kind = some (passes.markers family).pair) ∧
      (let raw := passes.pass .raw [.markup text offset]
       let escaped := passes.pass .escaped raw
       let regular := passes.pass .regular escaped
       ∀ pieces ∈ [raw, escaped, regular], Piece.InOrder text offset pieces) ∧
      ∀ output, passes.transpile text offset = .ok output →
        passes.Replaces config.echoFormat text output := by
  obtain ⟨hformat, htags⟩ := eq_of_build hbuild
  obtain ⟨before, after, hplaceholder⟩ := exists_isFirst_placeholder hvalid
  have hraw := Piece.ArePartsOf.pass_markup passes .raw text offset
  have hescaped := hraw.pass .escaped
  have hregular := hescaped.pass .regular
  refine ⟨htags, ?_, ?_⟩
  · simp only [List.forall_mem_cons, List.not_mem_nil, false_implies, implies_true, and_true]
    exact ⟨hraw.inOrder, hescaped.inOrder, hregular.inOrder⟩
  · intro output h
    rw [transpile, transpilePieces_eq] at h
    split at h
    · cases h
    · cases h
      rw [← hformat] at hplaceholder ⊢
      exact hregular.replaces hplaceholder

/-- A raw tag behind the escape marker, an escaped and a regular one, with all kinds of line breaks. -/
def threeEchoes : Text := "é@\x7b!! a !!\x7d\nx\x7b\x7b\x7b b \x7d\x7d\x7d\r\n\x7b\x7bc\x7d\x7d%s".toList

theorem transpile_replaces_threeEchoes :
    Config.default.validate = .ok () ∧ build Markers.standardLimit .default = .ok standard ∧
      ∃ output, standard.transpile threeEchoes 7 = .ok output ∧
        output = "é\x7b!! a !!\x7d\nx<?php echo e(b); ?>\r\n\r\n<?php echo e(c); ?>%s".toList ∧
        standard.Replaces "e(%s)".toList threeEchoes output := by
  have hvalid : Config.default.validate = .ok () := by decide
  have hbuild : build Markers.standardLimit .default = .ok standard := rfl
  have houtput : standard.transpile threeEchoes 7 =
      .ok "é\x7b!! a !!\x7d\nx<?php echo e(b); ?>\r\n\r\n<?php echo e(c); ?>%s".toList := by
    decide +kernel
  exact ⟨hvalid, hbuild, _, houtput, rfl, (transpile_replaces hvalid hbuild threeEchoes 7).2.2 _ houtput⟩

end

end EchoPasses

end Template
