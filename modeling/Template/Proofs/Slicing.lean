import Mathlib.Data.List.Chain
import Template.Proofs.ByteScan

/-! # Slices of a template

A template and its markup can be cut by byte positions, with slices that fail unless both their ends are
boundaries of characters, and with loops that fail when they are past the end or do not move on. Written so,
the search for native code, the cut into spans and the cut at directive tags take the same parts as over
characters, so no slice ever fails and every loop comes to its end.
-/

namespace Template

namespace Slicing

/-- The byte position of the first native code from `search` on, if there is any. -/
def codeStart? (source : Text) (search : Nat) : Option (Option Nat) :=
  if search ≤ Text.byteLength source then do
    let rest ← Text.dropBytes? search source
    match Text.cut? ['<', '?'] rest with
    | none => pure none
    | some (before, _) =>
      let here := search + Text.byteLength before
      let opener ← Text.dropBytes? here source
      if Text.startsWith ['<', '?', '='] opener then pure (some here)
      else if (Text.takeBytes? 5 opener).map (·.map Char.toLower) = some ['<', '?', 'p', 'h', 'p'] then
        let after ← Text.dropBytes? 5 opener
        if after.head?.all isBlank then pure (some here) else codeStart? source (here + 2)
      else codeStart? source (here + 2)
  else none
termination_by Text.byteLength source + 1 - search

/-- The spans from the byte position `cursor` on. -/
def spansFrom? (source : Text) (cursor : Nat) : Option (List Span) :=
  if cursor < Text.byteLength source then do
    match ← codeStart? source cursor with
    | none =>
      let text ← Text.dropBytes? cursor source
      pure [⟨.markup, text, cursor⟩]
    | some start =>
      let before ←
        if cursor < start then (Text.slice? cursor start source).map fun text => [⟨.markup, text, cursor⟩]
        else pure []
      let stop ← (Text.utf8 source).codeEnd? .code (start + 2)
      let code ← Text.slice? start stop source
      if cursor < stop then do
        let later ← spansFrom? source stop
        pure (before ++ ⟨.native, code, start⟩ :: later)
      else none
  else pure []
termination_by Text.byteLength source - cursor

/-- The argument at a byte position behind the head of a directive tag, and the position where it ends. -/
def argumentAt? (t : Text) (position : Nat) : Option (DirectiveArgument × Nat) := do
  let behind ← Text.dropBytes? position t
  if behind.head? = some '(' then
    match ← (Text.utf8 t).matchingParen? position with
    | none => pure (.unclosed, position)
    | some close =>
      let group ← Text.slice? position (close + 1) t
      pure (.given group, close + 1)
  else pure (.absent, position)

/-- A tag cut from a text: the text before it since the last one, and the tag without its escape marker. -/
structure CutTag where
  before : Text
  tag : DirectiveTag
  unescaped : Text
  deriving DecidableEq, Repr

def CutTag.ofPart (part : Text × DirectiveTag) : CutTag := ⟨part.1, part.2, part.2.unescaped⟩

/-- A tag up to where an argument can begin. -/
def headOf (tag : DirectiveTag) : DirectiveTag := { tag with argument := .absent }

/-- The directive tags from the byte position `last` on, and the text after them. -/
def tagsFrom? (t : Text) (last : Nat) : Option (List CutTag × Text) :=
  if last ≤ Text.byteLength t then do
    let rest ← Text.dropBytes? last t
    match DirectiveTag.next? (t.take (t.length - rest.length)).getLast? rest with
    | none => pure ([], rest)
    | some (before, tag, _) =>
      let start := last + Text.byteLength before
      let (argument, stop) ← argumentAt? t (start + Text.byteLength (headOf tag).source)
      let between ← Text.slice? last start t
      let unescaped ← Text.slice? (if tag.escaped then start + escapeMarker.utf8Size else start) stop t
      if last < stop then do
        let (later, rest) ← tagsFrom? t stop
        pure (⟨between, { headOf tag with argument }, unescaped⟩ :: later, rest)
      else none
  else none
termination_by Text.byteLength t + 1 - last

section

variable {c : Char} {t u front name mark : Text}

theorem lt_of_toLower (h : c.toLower.val < 128) : c.val < 128 := by
  unfold Char.toLower at h
  split at h
  case isTrue hupper =>
    rw [UInt32.lt_iff_toNat_lt]
    have hle := UInt32.le_iff_toNat_le.1 hupper.2
    exact Nat.lt_of_le_of_lt hle (by decide)
  case isFalse => exact h

/-- A text that is a mark but for the case of its letters takes as many bytes as the mark. -/
theorem byteLength_of_toLower (h : name.map Char.toLower = mark) (hmark : ∀ m ∈ mark, m.val < 128) :
    Text.byteLength name = mark.length := by
  subst h
  induction name with
  | nil => rfl
  | cons c name ih =>
    simp only [List.map_cons, List.forall_mem_cons] at hmark
    simp only [Text.byteLength_cons, List.map_cons, List.length_cons, ih hmark.2,
      utf8Size_of_lt (lt_of_toLower hmark.1)]
    omega

/-- The name of native code and the mark before it take five bytes, in any letter case. -/
theorem byteLength_opener (hname : name.map Char.toLower = ['p', 'h', 'p']) :
    Text.byteLength ('<' :: '?' :: name) = 5 := by
  have hmark : ∀ m ∈ ['p', 'h', 'p'], m.val < 128 := by
    simp only [List.forall_mem_cons]
    exact ⟨by decide, by decide, by decide, by simp⟩
  have hthree := byteLength_of_toLower hname hmark
  simp only [Text.byteLength_cons, hthree]
  rfl

theorem takeBytes?_toLower_iff :
    (Text.takeBytes? 5 ('<' :: '?' :: u)).map (·.map Char.toLower) = some ['<', '?', 'p', 'h', 'p'] ↔
      ∃ name after, u = name ++ after ∧ name.map Char.toLower = ['p', 'h', 'p'] := by
  constructor
  · intro h
    obtain ⟨opener, hopener, hlower⟩ := Option.map_eq_some_iff.1 h
    obtain ⟨after, hafter, htake⟩ := Option.map_eq_some_iff.1 hopener
    obtain ⟨front, hu, -⟩ := Text.dropBytes?_eq_some_iff.1 hafter
    obtain rfl : front = opener := by simpa [hu] using htake
    obtain ⟨a, more, rfl, -, hmore⟩ := List.map_eq_cons_iff.1 hlower
    obtain ⟨b, name, rfl, -, hname⟩ := List.map_eq_cons_iff.1 hmore
    simp only [List.cons_append, List.cons.injEq] at hu
    exact ⟨name, after, hu.2.2, hname⟩
  · rintro ⟨name, after, rfl, hname⟩
    have htake := Text.takeBytes?_append ('<' :: '?' :: name) after
    rw [byteLength_opener hname] at htake
    simp only [List.cons_append] at htake
    rw [htake, Option.map_some, List.map_cons, List.map_cons, hname]
    rfl

/-- Behind the name of native code stands a blank or the end. -/
theorem opensCode_of_name {after : Text} (hname : name.map Char.toLower = ['p', 'h', 'p']) :
    Text.dropBytes? 5 ('<' :: '?' :: (name ++ after)) = some after ∧
      opensCode ('<' :: '?' :: (name ++ after)) = after.head?.all isBlank := by
  refine ⟨?_, ?_⟩
  · rw [← byteLength_opener hname]
    exact Text.dropBytes?_append ('<' :: '?' :: name) after
  · obtain ⟨p, name, rfl, hp, hname⟩ := List.map_eq_cons_iff.1 hname
    obtain ⟨h, name, rfl, hh, hname⟩ := List.map_eq_cons_iff.1 hname
    obtain ⟨q, name, rfl, hq, hname⟩ := List.map_eq_cons_iff.1 hname
    obtain rfl := List.map_eq_nil_iff.1 hname
    have hne : p ≠ '=' := by
      rintro rfl
      revert hp
      decide
    simp [opensCode, hp, hh, hq]

/-- The test at a mark is the one for native code. -/
theorem codeStart?_of_cut? {before after : Text} (hcut : Text.cut? ['<', '?'] t = some (before, after)) :
    codeStart? (front ++ t) (Text.byteLength front) =
      if opensCode ('<' :: '?' :: after) then some (some (Text.byteLength (front ++ before)))
      else codeStart? (front ++ t) (Text.byteLength (front ++ before ++ ['<', '?'])) := by
  have ht : t = before ++ '<' :: '?' :: after := by simpa using Text.cut?_eq_some hcut
  have hopener : Text.dropBytes? (Text.byteLength front + Text.byteLength before) (front ++ t) =
      some ('<' :: '?' :: after) := by
    rw [ht, ← List.append_assoc, ← Text.byteLength_append, Text.dropBytes?_append]
  have hnext : Text.byteLength (front ++ before ++ ['<', '?']) =
      Text.byteLength front + Text.byteLength before + 2 := by
    rw [Text.byteLength_append, Text.byteLength_append]
    rfl
  rw [codeStart?, if_pos (Text.byteLength_le_append front t), hnext]
  simp only [Text.dropBytes?_append, Option.bind_eq_bind, Option.bind_some, hcut, hopener, Text.byteLength_append]
  by_cases hecho : Text.startsWith ['<', '?', '='] ('<' :: '?' :: after) = true
  · have hopens : opensCode ('<' :: '?' :: after) = true := by
      obtain ⟨rest, hrest⟩ := Option.isSome_iff_exists.1 hecho
      rw [Text.stripPrefix?_eq_some hrest]
      rfl
    simp only [hecho, hopens, if_true, Option.pure_def]
  · rw [if_neg hecho]
    by_cases hnamed : ∃ name rest, after = name ++ rest ∧ name.map Char.toLower = ['p', 'h', 'p']
    · rw [if_pos (takeBytes?_toLower_iff.2 hnamed)]
      obtain ⟨name, rest, rfl, hname⟩ := hnamed
      obtain ⟨hdrop, hopens⟩ := @opensCode_of_name _ rest hname
      rw [hdrop, hopens]
      rfl
    · rw [if_neg (mt takeBytes?_toLower_iff.1 hnamed), if_neg]
      rw [opensCode_iff]
      rintro (⟨rest, hrest⟩ | ⟨name, rest, hafter, hname, -⟩)
      · apply hecho
        rw [← hrest, Text.startsWith, Text.stripPrefix?_append]
        rfl
      · simp only [List.cons.injEq, true_and] at hafter
        exact hnamed ⟨name, rest, hafter, hname⟩

/-- The search by positions finds the first native code. -/
theorem codeStart?_append (front t : Text) : codeStart? (front ++ t) (Text.byteLength front) =
    some ((nextCode? t).map fun found => Text.byteLength (front ++ found.1)) := by
  induction hn : t.length using Nat.strongRecOn generalizing front t with
  | ind n ih =>
    subst hn
    cases hcut : Text.cut? ['<', '?'] t with
    | none =>
      rw [codeStart?, if_pos (Text.byteLength_le_append front t),
        nextCode?_eq_none_of_not_infix (Text.cut?_eq_none_iff.1 hcut)]
      simp only [Text.dropBytes?_append, Option.bind_eq_bind, Option.bind_some, hcut]
      rfl
    | some found =>
      obtain ⟨before, after⟩ := found
      have ht : t = before ++ '<' :: '?' :: after := by simpa using Text.cut?_eq_some hcut
      have havoids : Text.Avoids (opensCode · = true) before ('<' :: '?' :: after) := by
        apply (Text.avoids_of_cut?_eq_some hcut).mono
        intro u hu
        obtain ⟨v, rfl⟩ := exists_of_opensCode hu
        exact ⟨v, rfl⟩
      rw [codeStart?_of_cut? hcut]
      by_cases hopens : opensCode ('<' :: '?' :: after) = true
      · rw [if_pos hopens, ht, nextCode?_append_of_avoids havoids, nextCode?_of_opensCode hopens rfl]
        simp
      · -- The search goes on behind the mark, where no other begins at its second character.
        have hskip : Text.Avoids (opensCode · = true) (before ++ ['<', '?']) after := by
          refine Text.avoids_append.2 ⟨havoids, hopens, ?_, trivial⟩
          intro hmark
          obtain ⟨v, hv⟩ := exists_of_opensCode hmark
          cases hv
        have hlater := ih after.length (by simp [ht]; omega) (front ++ before ++ ['<', '?']) after rfl
        have hwhole : front ++ t = front ++ before ++ ['<', '?'] ++ after := by simp [ht]
        have hnext := nextCode?_append_of_avoids hskip
        rw [if_neg hopens, hwhole, hlater]
        rw [List.append_assoc, List.cons_append, List.cons_append, List.nil_append, ← ht] at hnext
        rw [hnext, Option.map_map]
        simp only [Function.comp_def, List.append_assoc]

/-- Code that starts at a position ends where the reader of characters ends it. -/
theorem codeEnd?_of_nextCode? {before code rest : Text} (hnext : nextCode? t = some (before, code, rest))
    (front : Text) : (Text.utf8 (front ++ t)).codeEnd? .code (Text.byteLength (front ++ before) + 2) =
      some (Text.byteLength (front ++ before ++ code)) := by
  obtain ⟨-, -, u, hopener, hcode⟩ := exists_of_nextCode? hnext
  have hquote : CodeMode.code.HasAsciiQuote := by
    rintro quote ⟨⟩
  have hread := Bytes.codeEnd?_append hquote (Text.utf8 (front ++ before ++ ['<', '?'])) u
  have hwhole : front ++ t = front ++ before ++ ['<', '?'] ++ u := by
    rw [nextCode?_append hnext, List.append_assoc before, hopener]
    simp
  have hstart : Text.byteLength (front ++ before ++ ['<', '?']) = Text.byteLength (front ++ before) + 2 := by
    rw [Text.byteLength_append]
    rfl
  rw [← Text.utf8_append, ← hwhole, Text.length_utf8, hstart] at hread
  have hmark : ('<' : Char).utf8Size = 1 ∧ ('?' : Char).utf8Size = 1 := ⟨rfl, rfl⟩
  simp only [hread, hcode, Text.byteLength_append (front ++ before), Text.byteLength_cons, hmark.1, hmark.2,
    Option.some.injEq]
  omega

/-- A round that finds native code cuts off the markup before it and the code, and goes on behind the code. -/
theorem spansFrom?_of_nextCode? {before code rest : Text} (hnext : nextCode? t = some (before, code, rest))
    (front : Text) : spansFrom? (front ++ t) (Text.byteLength front) =
      (spansFrom? (front ++ t) (Text.byteLength (front ++ before ++ code))).map fun later =>
        Span.markup before (Text.byteLength front) ++ ⟨.native, code, Text.byteLength (front ++ before)⟩ :: later := by
  have ht := nextCode?_append hnext
  have hcodePos := Text.byteLength_pos (nextCode?_ne_nil hnext)
  have hlt : Text.byteLength front < Text.byteLength (front ++ t) := by
    simp only [ht, Text.byteLength_append]
    omega
  have hmoves : Text.byteLength front < Text.byteLength (front ++ before ++ code) := by
    simp only [Text.byteLength_append]
    omega
  have hwhole : front ++ t = front ++ before ++ code ++ rest := by simp only [ht, List.append_assoc]
  have hcode := Text.slice?_of_eq_append hwhole
  rw [List.append_assoc _ code] at hwhole
  have hmarkup := Text.slice?_of_eq_append hwhole
  rw [spansFrom?, if_pos hlt, codeStart?_append, hnext]
  simp only [Option.map_some, Option.bind_eq_bind, Option.bind_some, codeEnd?_of_nextCode? hnext front, hmarkup, hcode,
    hmoves, if_true]
  by_cases hbefore : before = []
  · simp only [hbefore, List.append_nil, Nat.lt_irrefl, if_false, Span.markup, if_true, List.nil_append,
      Option.pure_def, Option.bind_some, Option.map_eq_bind, Function.comp_def]
  · have hbeforePos := Text.byteLength_pos hbefore
    have hmarkupMoves : Text.byteLength front < Text.byteLength (front ++ before) := by
      rw [Text.byteLength_append]
      omega
    simp only [hmarkupMoves, if_true, Span.markup, hbefore, if_false, Option.pure_def, Option.bind_some,
      Option.map_eq_bind, Function.comp_def]

/-- The spans cut by positions are the spans of the text. -/
theorem spansFrom?_append (front t : Text) :
    spansFrom? (front ++ t) (Text.byteLength front) = some (Span.ofTextAt (Text.byteLength front) t) := by
  induction hn : t.length using Nat.strongRecOn generalizing front t with
  | ind n ih =>
    subst hn
    cases hnext : nextCode? t with
    | none =>
      rw [Span.ofTextAt_of_none hnext, spansFrom?, codeStart?_append, hnext]
      by_cases ht : t = []
      · simp [ht, Span.markup]
      · have hpos := Text.byteLength_pos ht
        simp [Span.markup, ht, hpos]
    | some found =>
      obtain ⟨before, code, rest⟩ := found
      have ht := nextCode?_append hnext
      have hshorter : rest.length < t.length := by
        have hne := List.length_pos_iff.2 (nextCode?_ne_nil hnext)
        simp only [ht, List.length_append]
        omega
      have hlater := ih rest.length hshorter (front ++ before ++ code) rest rfl
      have hwhole : front ++ before ++ code ++ rest = front ++ t := by simp only [ht, List.append_assoc]
      rw [hwhole] at hlater
      rw [spansFrom?_of_nextCode? hnext, hlater, Span.ofTextAt_of_some hnext]
      simp only [Option.map_some, Text.byteLength_append]

/-- An argument read by positions is the argument of the text. -/
theorem argumentAt?_append (front t : Text) : argumentAt? (front ++ t) (Text.byteLength front) =
    some ((DirectiveTag.argumentOf t).1,
      Text.byteLength front + Text.byteLength ((DirectiveTag.argumentOf t).1.text?.getD [])) := by
  have hparen : Text.matchingParen? (front ++ t) (Text.byteLength front) =
      (Text.group? t).map fun found => Text.byteLength front + Text.byteLength found.1 - 1 := by
    unfold Text.matchingParen?
    cases hgroup : Text.group? t <;> simp [hgroup]
  unfold argumentAt? DirectiveTag.argumentOf
  simp only [Text.dropBytes?_append, Option.bind_eq_bind, Option.bind_some, Bytes.matchingParen?_utf8, hparen]
  cases hgroup : Text.group? t with
  | none =>
    by_cases hopens : t.head? = some '(' <;> simp [hopens, DirectiveArgument.text?]
  | some found =>
    obtain ⟨group, rest⟩ := found
    obtain ⟨inside, hinside⟩ := Text.group?_opens hgroup
    obtain rfl := Text.group?_eq_some hgroup
    have hpos : 0 < Text.byteLength group := Text.byteLength_pos (hinside ▸ List.cons_ne_nil '(' inside)
    have hclose : Text.byteLength front + Text.byteLength group - 1 + 1 =
        Text.byteLength front + Text.byteLength group := by omega
    have hopens : (group ++ rest).head? = some '(' := by
      rw [hinside]
      rfl
    simp only [hopens, if_true, Option.map_some, hclose, Text.slice?_append, Option.bind_some, Option.pure_def]
    rfl

/-- An argument stands behind the head of a tag, if the tag has one. -/
theorem exists_of_standsAt {previous : Option Char} {tag : DirectiveTag} {rest : Text}
    (h : DirectiveTag.StandsAt previous t tag rest) :
    ∃ after, t = (headOf tag).source ++ after ∧ DirectiveTag.argumentOf after = (tag.argument, rest) := by
  obtain @⟨escaped, name, spacing, after, _, argument, -, -, -, -, -, -, hargument⟩ := h
  refine ⟨after, ?_, hargument.argumentOf_eq⟩
  cases escaped <;> simp [headOf, DirectiveTag.source, DirectiveTag.unescaped, DirectiveArgument.text?]

theorem source_headOf_append (tag : DirectiveTag) :
    (headOf tag).source ++ tag.argument.text?.getD [] = tag.source := by
  cases hescaped : tag.escaped <;>
    simp [hescaped, headOf, DirectiveTag.source, DirectiveTag.unescaped, DirectiveArgument.text?]

/-- A tag can be cut behind its escape marker. -/
theorem slice?_unescaped {whole : Text} {tag : DirectiveTag} {rest : Text} (h : whole = front ++ tag.source ++ rest) :
    Text.slice? (if tag.escaped then Text.byteLength front + escapeMarker.utf8Size else Text.byteLength front)
      (Text.byteLength (front ++ tag.source)) whole = some tag.unescaped := by
  have hstart : (if tag.escaped then Text.byteLength front + escapeMarker.utf8Size else Text.byteLength front) =
      Text.byteLength (front ++ if tag.escaped then [escapeMarker] else []) := by
    cases tag.escaped <;> simp
  have hstop : front ++ tag.source = (front ++ if tag.escaped then [escapeMarker] else []) ++ tag.unescaped := by
    rw [DirectiveTag.source, List.append_assoc]
  rw [hstop] at h ⊢
  rw [hstart]
  exact Text.slice?_of_eq_append h

/-- The argument of a tag is read behind its head. -/
theorem argumentAt?_of_standsAt {previous : Option Char} {tag : DirectiveTag} {rest : Text}
    (h : DirectiveTag.StandsAt previous t tag rest) (front : Text) :
    argumentAt? (front ++ t) (Text.byteLength front + Text.byteLength (headOf tag).source) =
      some (tag.argument, Text.byteLength (front ++ tag.source)) := by
  obtain ⟨after, rfl, hargument⟩ := exists_of_standsAt h
  have hread := argumentAt?_append (front ++ (headOf tag).source) after
  rw [hargument, List.append_assoc, Text.byteLength_append] at hread
  rw [hread, ← source_headOf_append tag]
  simp only [Text.byteLength_append, Nat.add_assoc]

/-- A round that finds a tag cuts off the text before it and the tag, and goes on behind the tag. -/
theorem tagsFrom?_of_next? {before rest : Text} {tag : DirectiveTag}
    (hnext : DirectiveTag.next? front.getLast? t = some (before, tag, rest)) :
    tagsFrom? (front ++ t) (Text.byteLength front) =
      (tagsFrom? (front ++ t) (Text.byteLength (front ++ before ++ tag.source))).map fun found =>
        (CutTag.ofPart (before, tag) :: found.1, found.2) := by
  have hfront : (front ++ t).take ((front ++ t).length - t.length) = front := by simp
  have hmoves : Text.byteLength front < Text.byteLength (front ++ before ++ tag.source) := by
    have hsource := Text.byteLength_pos (DirectiveTag.source_ne_nil tag)
    simp only [Text.byteLength_append]
    omega
  obtain ⟨u, rfl, -, hstands⟩ := DirectiveTag.next?_eq_some_iff.1 hnext
  have hwhole : front ++ (before ++ u) = front ++ before ++ tag.source ++ rest := by
    rw [hstands.eq_append]
    simp only [List.append_assoc]
  have hread := argumentAt?_of_standsAt hstands (front ++ before)
  have hunescaped := slice?_unescaped hwhole
  have hbetween := Text.slice?_append front before u
  rw [List.append_assoc front before u] at hread
  simp only [Text.byteLength_append] at hread hunescaped hmoves ⊢
  rw [tagsFrom?, if_pos (Text.byteLength_le_append front _)]
  simp only [Text.dropBytes?_append, Option.bind_eq_bind, Option.bind_some, hfront, hnext, hread, hbetween, hunescaped,
    hmoves, if_true]
  rw [Option.map_eq_bind]
  rfl

/-- The tags cut by positions are the tags of the text. -/
theorem tagsFrom?_append (front t : Text) : tagsFrom? (front ++ t) (Text.byteLength front) =
    some ((DirectiveTag.splitAfter front.getLast? t).1.map CutTag.ofPart,
      (DirectiveTag.splitAfter front.getLast? t).2) := by
  induction hn : t.length using Nat.strongRecOn generalizing front t with
  | ind n ih =>
    subst hn
    cases hnext : DirectiveTag.next? front.getLast? t with
    | none =>
      have hfront : (front ++ t).take ((front ++ t).length - t.length) = front := by simp
      rw [tagsFrom?, if_pos (Text.byteLength_le_append front t), DirectiveTag.splitAfter_of_none hnext]
      simp only [Text.dropBytes?_append, Option.bind_eq_bind, Option.bind_some, hfront, hnext]
      rfl
    | some found =>
      obtain ⟨before, tag, rest⟩ := found
      have ht := DirectiveTag.next?_eq_some hnext
      have hshorter : rest.length < t.length := by
        have hne := List.length_pos_iff.2 (DirectiveTag.source_ne_nil tag)
        simp only [ht, List.length_append]
        omega
      have hlater := ih rest.length hshorter (front ++ before ++ tag.source) rest rfl
      have hwhole : front ++ before ++ tag.source ++ rest = front ++ t := by simp only [ht, List.append_assoc]
      have hlast : (front ++ before ++ tag.source).getLast? = tag.source.getLast? := by
        rw [List.getLast?_append, List.getLast?_eq_some_getLast (DirectiveTag.source_ne_nil tag)]
        rfl
      rw [hwhole, hlast] at hlater
      rw [tagsFrom?_of_next? hnext, hlater, DirectiveTag.splitAfter_of_some hnext]
      rfl

end

end Slicing

namespace Span

/-- The spans are the parts that a text is cut into, and a span of markup is as long as it can be. -/
structure Partition (source : Text) (spans : List Span) : Prop where
  nonempty : ∀ span ∈ spans, span.text ≠ []
  texts : spans.flatMap Span.text = source
  offsets : Tiles 0 spans
  apart : spans.IsChain fun span next => ¬ (span.kind = .markup ∧ next.kind = .markup)
  boundaries : ∀ span ∈ spans, (Text.utf8 source).IsBoundary span.offset ∧
    (Text.utf8 source).IsBoundary (span.offset + Text.byteLength span.text)

section

variable {t : Text} {offset : Nat} {span : Span}

theorem text_ne_nil_of_mem_markup (h : span ∈ markup t offset) : span.text ≠ [] := by
  unfold markup at h
  split at h
  case isTrue => cases h
  case isFalse ht =>
    rw [List.mem_singleton] at h
    rw [h]
    exact ht

theorem text_ne_nil_of_mem_ofTextAt (h : span ∈ ofTextAt offset t) : span.text ≠ [] := by
  fun_induction ofTextAt offset t with
  | case1 => exact text_ne_nil_of_mem_markup h
  | case2 offset t before code rest hnext start ih =>
    rcases List.mem_append.1 h with h | h
    · exact text_ne_nil_of_mem_markup h
    · rcases List.mem_cons.1 h with rfl | h
      · exact nextCode?_ne_nil hnext
      · exact ih h

/-- Two spans of markup never stand side by side. -/
theorem isChain_ofTextAt (offset : Nat) (t : Text) :
    (ofTextAt offset t).IsChain fun span next => ¬ (span.kind = .markup ∧ next.kind = .markup) := by
  fun_induction ofTextAt offset t with
  | case1 offset t =>
    unfold markup
    split
    · exact .nil
    · exact .singleton _
  | case2 offset t before code rest hnext start ih =>
    have hnative : (⟨.native, code, start⟩ :: ofTextAt (start + Text.byteLength code) rest).IsChain
        fun span next => ¬ (span.kind = .markup ∧ next.kind = .markup) := by
      refine List.isChain_cons.2 ⟨?_, ih⟩
      rintro next - ⟨hkind, -⟩
      cases hkind
    unfold markup
    split
    · exact hnative
    · refine List.isChain_cons.2 ⟨?_, hnative⟩
      rintro next hnext ⟨-, hkind⟩
      cases hnext
      cases hkind

theorem partition_ofText (source : Text) : Partition source (ofText source) where
  nonempty _ hspan := text_ne_nil_of_mem_ofTextAt hspan
  texts := flatMap_text_ofTextAt 0 source
  offsets := tiles_ofTextAt 0 source
  apart := isChain_ofTextAt 0 source
  boundaries span hspan := by
    obtain ⟨front, back, hsource, hoffset⟩ := mem_ofText hspan
    refine ⟨Text.isBoundary_iff.2 ⟨front, span.text ++ back, ?_, hoffset.symm⟩,
      Text.isBoundary_iff.2 ⟨front ++ span.text, back, hsource, ?_⟩⟩
    · rw [hsource, List.append_assoc]
    · rw [hoffset, Text.byteLength_append]

end

end Span

namespace Slicing

/-- Slices fail only off the boundaries of characters, and yet the loops that cut a text by byte positions give
    its spans, its groups and its tags: none of them takes such a slice, and each comes to its end. -/
theorem slices_succeed (source : Text) :
    (∀ position, (Text.dropBytes? position source).isSome ↔ (Text.utf8 source).IsBoundary position) ∧
    (∀ start stop, (Text.slice? start stop source).isSome ↔
      start ≤ stop ∧ (Text.utf8 source).IsBoundary start ∧ (Text.utf8 source).IsBoundary stop) ∧
    spansFrom? source 0 = some (Span.ofText source) ∧
    Span.Partition source (Span.ofText source) ∧
    (∀ position, (Text.utf8 source).matchingParen? position = some (Text.matchingParen? source position)) ∧
    (∀ position close, Text.matchingParen? source position = some close →
      (Text.utf8 source).IsBoundary position ∧ (Text.utf8 source).IsBoundary close ∧
        (Text.utf8 source).IsBoundary (close + 1)) ∧
    tagsFrom? source 0 = some ((DirectiveTag.split source).1.map CutTag.ofPart, (DirectiveTag.split source).2) := by
  refine ⟨?_, ?_, spansFrom?_append [] source, Span.partition_ofText source, ?_, ?_, tagsFrom?_append [] source⟩
  · intro position
    exact Text.dropBytes?_isSome_iff
  · intro start stop
    exact Text.slice?_isSome_iff
  · intro position
    exact Bytes.matchingParen?_utf8 source position
  · intro position close hclose
    exact Text.isBoundary_of_matchingParen? hclose

end Slicing

end Template
