import Template.Proofs.Span

/-! # Parts of native code

Native code is read in parts: strings and comments are taken whole, any other character by
itself. A closing mark inside a string or a block comment ends nothing; the first one that
stands elsewhere ends the code, and a line comment with it.
-/

namespace Template

def closingMark : Text := ['?', '>']

/-- The mark that ends a block comment. -/
def blockEnd : Text := ['*', '/']

/-- The inside of quotes. A backslash takes the character after it. -/
inductive QuotedBody (quote : Char) : Text → Prop where
  | nil : QuotedBody quote []
  | plain {c : Char} {t : Text} (hquote : c ≠ quote) (hslash : c ≠ '\\') (h : QuotedBody quote t) :
      QuotedBody quote (c :: t)
  | escaped {c : Char} {t : Text} (h : QuotedBody quote t) : QuotedBody quote ('\\' :: c :: t)

inductive CodePart where
  /-- A character by itself. -/
  | plain (c : Char)
  | quoted (text : Text)
  | lineComment (text : Text)
  | blockComment (text : Text)

namespace CodePart

def text : CodePart → Text
  | plain c => [c]
  | quoted text | lineComment text | blockComment text => text

/-- Whether a closing mark may stand in the part without ending the code. -/
def hides : CodePart → Bool
  | quoted _ | blockComment _ => true
  | plain _ | lineComment _ => false

/-- The marks that begin a string or a comment, and the closing mark. -/
def marks : List Text := [['\''], ['"'], ['#'], ['/', '/'], ['/', '*'], closingMark]

/-- The part is written whole when `rest` follows it. Quotes and block comments that are never
    closed reach to the end of the text. -/
inductive Whole : CodePart → (rest : Text) → Prop where
  | plain {c : Char} {rest : Text} (hmarks : ∀ mark ∈ marks, ¬ mark <+: c :: rest) :
      Whole (.plain c) rest
  | quoted {quote : Char} {body last rest : Text} (hquote : quote = '\'' ∨ quote = '"')
      (hbody : QuotedBody quote body)
      (hlast : last = [quote] ∨ rest = [] ∧ (last = [] ∨ last = ['\\'])) :
      Whole (.quoted (quote :: (body ++ last))) rest
  /-- A line comment ends before a line feed and before a closing mark. -/
  | lineComment {opener body rest : Text} (hopener : opener = ['#'] ∨ opener = ['/', '/'])
      (hline : '\n' ∉ body) (hcloses : Text.Avoids (closingMark <+: ·) body rest)
      (hrest : rest = [] ∨ ['\n'] <+: rest ∨ closingMark <+: rest) :
      Whole (.lineComment (opener ++ body)) rest
  | blockComment {body last rest : Text} (hbody : Text.Avoids (blockEnd <+: ·) body (last ++ rest))
      (hlast : last = blockEnd ∨ rest = [] ∧ last = []) :
      Whole (.blockComment ('/' :: '*' :: (body ++ last))) rest

end CodePart

/-- Code is read as parts, one after another, and `rest` is what follows them. -/
inductive ReadsAs : Text → List CodePart → (rest : Text) → Prop where
  | done {rest : Text} : ReadsAs rest [] rest
  | part {part : CodePart} {parts : List CodePart} {t rest : Text} (hwhole : part.Whole t)
      (hreads : ReadsAs t parts rest) : ReadsAs (part.text ++ t) (part :: parts) rest

/-- A place in code, given by the text before it, lies inside a string or a block comment. -/
def HidesPlace (code front : Text) : Prop :=
  ∃ parts part rest inside, ReadsAs code (parts ++ [part]) rest ∧ part.hides = true ∧
    inside ≠ [] ∧ inside ≠ part.text ∧ inside <+: part.text ∧
      front = parts.flatMap CodePart.text ++ inside

/-- A closing mark stands after `front`, outside strings and block comments. -/
def ClosesAfter (code front back : Text) : Prop :=
  code = front ++ closingMark ++ back ∧ ¬ HidesPlace code front

/-- The line feed that a text begins with, with a carriage return before it or without. -/
def IsLineBreakOf (lineBreak t : Text) : Prop :=
  lineBreak = ['\r', '\n'] ∧ ['\r', '\n'] <+: t ∨ lineBreak = ['\n'] ∧ ['\n'] <+: t ∨
    lineBreak = [] ∧ ¬ ['\r', '\n'] <+: t ∧ ¬ ['\n'] <+: t

/-- How much of the text after a code opener is code: it goes up to the first closing mark outside
    strings and block comments, with that mark and one line break right after it, or to the end. -/
inductive CodeReaches (t : Text) : (code : Text) → Prop where
  | closed {front back lineBreak : Text} (hcloses : ClosesAfter t front back)
      (hfirst : ∀ front' back', ClosesAfter t front' back' → front.length ≤ front'.length)
      (hbreak : IsLineBreakOf lineBreak back) : CodeReaches t (front ++ closingMark ++ lineBreak)
  | unclosed (hnone : ∀ front back, ¬ ClosesAfter t front back) : CodeReaches t t

namespace CodePart

section

variable {part other : CodePart} {quote : Char} {body body' last last' opener opener' t rest rest' : Text}

theorem Whole.text_ne_nil (h : part.Whole rest) : part.text ≠ [] := by
  cases h with
  | plain | quoted | blockComment => exact List.cons_ne_nil _ _
  | lineComment hopener =>
    rcases hopener with rfl | rfl <;> exact List.cons_ne_nil _ _

theorem exists_quoted (quote : Char) : ∀ t : Text, ∃ body last rest, t = body ++ last ++ rest ∧
    QuotedBody quote body ∧ (last = [quote] ∨ rest = [] ∧ (last = [] ∨ last = ['\\']))
  | [] => ⟨[], [], [], rfl, .nil, .inr ⟨rfl, .inl rfl⟩⟩
  | [c] => by
    by_cases hquote : c = quote
    · exact ⟨[], [c], [], rfl, .nil, .inl (by rw [hquote])⟩
    · by_cases hslash : c = '\\'
      · exact ⟨[], [c], [], rfl, .nil, .inr ⟨rfl, .inr (by rw [hslash])⟩⟩
      · exact ⟨[c], [], [], rfl, .plain hquote hslash .nil, .inr ⟨rfl, .inl rfl⟩⟩
  | c :: d :: t => by
    by_cases hquote : c = quote
    · exact ⟨[], [c], d :: t, rfl, .nil, .inl (by rw [hquote])⟩
    · by_cases hslash : c = '\\'
      · obtain ⟨body, last, rest, ht, hbody, hlast⟩ := exists_quoted quote t
        exact ⟨c :: d :: body, last, rest, by rw [ht]; rfl, hslash ▸ .escaped hbody, hlast⟩
      · obtain ⟨body, last, rest, ht, hbody, hlast⟩ := exists_quoted quote (d :: t)
        exact ⟨c :: body, last, rest, by rw [ht]; rfl, .plain hquote hslash hbody, hlast⟩

theorem exists_lineComment (t : Text) : ∃ body rest, t = body ++ rest ∧ '\n' ∉ body ∧
    Text.Avoids (closingMark <+: ·) body rest ∧
      (rest = [] ∨ ['\n'] <+: rest ∨ closingMark <+: rest) := by
  induction t with
  | nil => exact ⟨[], [], rfl, List.not_mem_nil, trivial, .inl rfl⟩
  | cons c t ih =>
    by_cases hend : ['\n'] <+: c :: t ∨ closingMark <+: c :: t
    · exact ⟨[], c :: t, rfl, List.not_mem_nil, trivial, .inr hend⟩
    · obtain ⟨hfeed, hclose⟩ := not_or.1 hend
      obtain ⟨body, rest, rfl, hline, hcloses, hrest⟩ := ih
      refine ⟨c :: body, rest, rfl, ?_, ⟨hclose, hcloses⟩, hrest⟩
      intro hmem
      rcases List.mem_cons.1 hmem with rfl | hmem
      · exact hfeed (List.prefix_append ['\n'] (body ++ rest))
      · exact hline hmem

theorem exists_blockComment (t : Text) : ∃ body last rest, t = body ++ last ++ rest ∧
    Text.Avoids (blockEnd <+: ·) body (last ++ rest) ∧
      (last = blockEnd ∨ rest = [] ∧ last = []) := by
  cases hcut : Text.cut? blockEnd t with
  | none =>
    have hnone := Text.cut?_eq_none_iff.1 hcut
    exact ⟨t, [], [], by simp, Text.avoids_of_not_infix_nil hnone, .inr ⟨rfl, rfl⟩⟩
  | some found =>
    obtain ⟨body, rest⟩ := found
    exact ⟨body, blockEnd, rest, Text.cut?_eq_some hcut, Text.avoids_of_cut?_eq_some hcut, .inl rfl⟩

/-- Code that does not end here goes on with a part. -/
theorem exists_whole (hne : t ≠ []) (hclose : ¬ closingMark <+: t) :
    ∃ part rest, t = text part ++ rest ∧ part.Whole rest := by
  obtain ⟨c, u, rfl⟩ := List.exists_cons_of_ne_nil hne
  by_cases hmarks : ∀ mark ∈ marks, ¬ mark <+: c :: u
  · exact ⟨.plain c, u, rfl, .plain hmarks⟩
  · obtain ⟨mark, hmem, hmark⟩ : ∃ mark ∈ marks, mark <+: c :: u := by
      simpa only [Classical.not_forall, Classical.not_not, exists_prop] using hmarks
    have quotes : ∀ quote : Char, (quote = '\'' ∨ quote = '"') → [quote] <+: c :: u →
        ∃ part rest, c :: u = text part ++ rest ∧ part.Whole rest := by
      intro quote hquote hmark
      obtain ⟨rfl, -⟩ := List.cons_prefix_cons.1 hmark
      obtain ⟨body, last, rest, rfl, hbody, hlast⟩ := exists_quoted quote u
      exact ⟨_, rest, rfl, .quoted hquote hbody hlast⟩
    have lineComments : ∀ opener : Text, (opener = ['#'] ∨ opener = ['/', '/']) → opener <+: c :: u →
        ∃ part rest, c :: u = text part ++ rest ∧ part.Whole rest := by
      rintro opener hopener ⟨v, hv⟩
      obtain ⟨body, rest, rfl, hline, hcloses, hrest⟩ := exists_lineComment v
      exact ⟨_, rest, by rw [← hv, text, List.append_assoc], .lineComment hopener hline hcloses hrest⟩
    simp only [marks, List.mem_cons, List.not_mem_nil, or_false] at hmem
    rcases hmem with rfl | rfl | rfl | rfl | rfl | rfl
    · exact quotes '\'' (.inl rfl) hmark
    · exact quotes '"' (.inr rfl) hmark
    · exact lineComments ['#'] (.inl rfl) hmark
    · exact lineComments ['/', '/'] (.inr rfl) hmark
    · obtain ⟨v, hv⟩ := hmark
      obtain ⟨body, last, rest, rfl, hbody, hlast⟩ := exists_blockComment v
      exact ⟨_, rest, by rw [← hv]; simp [text], .blockComment hbody hlast⟩
    · exact absurd hmark hclose

/-- A part that is more than a character begins with its mark. -/
theorem Whole.exists_mark (h : part.Whole rest) :
    (∃ c, part = .plain c) ∨ ∃ mark ∈ marks, mark <+: part.text ++ rest := by
  cases h with
  | plain => exact .inl ⟨_, rfl⟩
  | quoted hquote =>
    refine .inr ⟨[_], ?_, _, rfl⟩
    rcases hquote with rfl | rfl <;> decide
  | lineComment hopener =>
    refine .inr ⟨_, ?_, _, (List.append_assoc _ _ _).symm⟩
    rcases hopener with rfl | rfl <;> decide
  | blockComment => exact .inr ⟨['/', '*'], by decide, _, rfl⟩

theorem quoted_unique (hquote : quote ≠ '\\') (hbody : QuotedBody quote body)
    (hlast : last = [quote] ∨ rest = [] ∧ (last = [] ∨ last = ['\\']))
    (hbody' : QuotedBody quote body')
    (hlast' : last' = [quote] ∨ rest' = [] ∧ (last' = [] ∨ last' = ['\\']))
    (h : body ++ (last ++ rest) = body' ++ (last' ++ rest')) : body = body' ∧ last = last' := by
  induction hbody generalizing body' with
  | nil | plain | escaped => cases hbody' <;> grind

theorem lineComment_unique (hline : '\n' ∉ body) (hcloses : Text.Avoids (closingMark <+: ·) body rest)
    (hrest : rest = [] ∨ ['\n'] <+: rest ∨ closingMark <+: rest) (hline' : '\n' ∉ body')
    (hcloses' : Text.Avoids (closingMark <+: ·) body' rest')
    (hrest' : rest' = [] ∨ ['\n'] <+: rest' ∨ closingMark <+: rest')
    (h : body ++ rest = body' ++ rest') : body = body' := by
  have stops : ∀ {c : Char} {s more : Text}, '\n' ∉ c :: s →
      Text.Avoids (closingMark <+: ·) (c :: s) more →
        ¬ (c :: (s ++ more) = [] ∨ ['\n'] <+: c :: (s ++ more) ∨ closingMark <+: c :: (s ++ more)) := by
    rintro c s more hline hcloses (hnil | hfeed | hclose)
    · cases hnil
    · exact hline ((List.cons_prefix_cons.1 hfeed).1 ▸ List.mem_cons_self)
    · exact hcloses.1 hclose
  induction body generalizing body' with
  | nil =>
    cases body' with
    | nil => rfl
    | cons c body' =>
      subst h
      exact absurd hrest (stops hline' hcloses')
  | cons c body ih =>
    cases body' with
    | nil =>
      subst h
      exact absurd hrest' (stops hline hcloses)
    | cons d body' =>
      rw [List.cons_append, List.cons_append, List.cons.injEq] at h
      rw [h.1, ih (fun hmem => hline (List.mem_cons_of_mem c hmem)) hcloses.2
        (fun hmem => hline' (List.mem_cons_of_mem d hmem)) hcloses'.2 h.2]

theorem cut?_blockEnd (hbody : Text.Avoids (blockEnd <+: ·) body (last ++ rest))
    (hlast : last = blockEnd ∨ rest = [] ∧ last = []) :
    Text.cut? blockEnd (body ++ (last ++ rest)) = if last = [] then none else some (body, rest) := by
  rcases hlast with rfl | ⟨rfl, rfl⟩
  · exact Text.cut?_of_avoids hbody
  · exact Text.cut?_append_of_avoids hbody

theorem blockComment_unique (hbody : Text.Avoids (blockEnd <+: ·) body (last ++ rest))
    (hlast : last = blockEnd ∨ rest = [] ∧ last = [])
    (hbody' : Text.Avoids (blockEnd <+: ·) body' (last' ++ rest'))
    (hlast' : last' = blockEnd ∨ rest' = [] ∧ last' = [])
    (h : body ++ (last ++ rest) = body' ++ (last' ++ rest')) : body ++ last = body' ++ last' := by
  have hcut := cut?_blockEnd hbody hlast
  rw [h, cut?_blockEnd hbody' hlast'] at hcut
  rcases hlast with rfl | ⟨rfl, rfl⟩ <;> rcases hlast' with rfl | ⟨rfl, rfl⟩
  · cases hcut
    rfl
  · cases hcut
  · cases hcut
  · simpa using h

/-- Code begins with only one part. -/
theorem Whole.unique (h : part.Whole rest) (h' : other.Whole rest')
    (ht : part.text ++ rest = other.text ++ rest') : part = other := by
  have notPlain : ∀ {c : Char} {u : Text} {part : CodePart} {more : Text},
      (∀ mark ∈ marks, ¬ mark <+: c :: u) → part.Whole more → c :: u = part.text ++ more →
        ∃ d, part = .plain d := by
    intro c u part more hmarks hwhole hu
    rcases hwhole.exists_mark with hplain | ⟨mark, hmem, hmark⟩
    · exact hplain
    · exact absurd (hu ▸ hmark) (hmarks mark hmem)
  cases h with
  | plain hmarks =>
    obtain ⟨d, rfl⟩ := notPlain hmarks h' ht
    rw [(List.cons.inj ht).1]
  | @quoted quote body last _ hquote hbody hlast =>
    cases h' with
    | plain hmarks =>
      obtain ⟨d, hd⟩ := notPlain hmarks (.quoted hquote hbody hlast) ht.symm
      cases hd
    | quoted _ hbody' hlast' =>
      simp only [text, List.cons_append, List.append_assoc, List.cons.injEq] at ht
      obtain ⟨rfl, ht⟩ := ht
      have hslash : quote ≠ '\\' := by rcases hquote with rfl | rfl <;> decide
      obtain ⟨rfl, rfl⟩ := quoted_unique hslash hbody hlast hbody' hlast' ht
      rfl
    | lineComment hopener => rcases hquote with rfl | rfl <;> rcases hopener with rfl | rfl <;> cases ht
    | blockComment => rcases hquote with rfl | rfl <;> cases ht
  | @lineComment opener body _ hopener hline hcloses hrest =>
    cases h' with
    | plain hmarks =>
      obtain ⟨d, hd⟩ := notPlain hmarks (.lineComment hopener hline hcloses hrest) ht.symm
      cases hd
    | quoted hquote => rcases hquote with rfl | rfl <;> rcases hopener with rfl | rfl <;> cases ht
    | @lineComment opener' body' _ hopener' hline' hcloses' hrest' =>
      simp only [text, List.append_assoc] at ht
      have hsame : opener = opener' := by
        rcases hopener with rfl | rfl <;> rcases hopener' with rfl | rfl <;> first | rfl | cases ht
      subst hsame
      rw [lineComment_unique hline hcloses hrest hline' hcloses' hrest' (List.append_cancel_left ht)]
    | blockComment => rcases hopener with rfl | rfl <;> cases ht
  | blockComment hbody hlast =>
    cases h' with
    | plain hmarks =>
      obtain ⟨d, hd⟩ := notPlain hmarks (.blockComment hbody hlast) ht.symm
      cases hd
    | quoted hquote => rcases hquote with rfl | rfl <;> cases ht
    | lineComment hopener => rcases hopener with rfl | rfl <;> cases ht
    | blockComment hbody' hlast' =>
      simp only [text, List.cons_append, List.append_assoc, List.cons.injEq, true_and] at ht
      rw [blockComment_unique hbody hlast hbody' hlast' ht]

/-- Where a closing mark begins in a part, the part is a string or a block comment. -/
theorem Whole.hides_of_mark {front back : Text} (h : part.Whole rest)
    (ht : part.text ++ rest = front ++ (closingMark ++ back)) (hlt : front.length < part.text.length) :
    part.hides = true ∧ front ≠ [] := by
  cases h with
  | plain hmarks =>
    have hnil : front = [] := List.length_eq_zero_iff.1 (by simpa [text] using hlt)
    subst hnil
    exact absurd ⟨back, ht.symm⟩ (hmarks closingMark (by decide))
  | quoted hquote =>
    refine ⟨rfl, ?_⟩
    rintro rfl
    rcases hquote with rfl | rfl <;> cases ht
  | @lineComment opener body _ hopener _ hcloses =>
    have havoids : Text.Avoids (closingMark <+: ·) (opener ++ body) rest := by
      refine Text.avoids_append.2 ⟨?_, hcloses⟩
      rcases hopener with rfl | rfl <;> simp [closingMark, List.cons_prefix_cons]
    obtain ⟨more, hfront, hmark⟩ | ⟨more, hfront, hmark⟩ := List.append_eq_append_iff.1 ht
    · have := congrArg List.length hfront
      simp only [List.length_append] at this
      omega
    · refine absurd ⟨back, hmark⟩ (Text.avoids_iff.1 havoids front more hfront ?_)
      rintro rfl
      have := congrArg List.length hfront
      simp only [List.length_append, List.length_nil] at this
      omega
  | blockComment =>
    refine ⟨rfl, ?_⟩
    rintro rfl
    cases ht

end

end CodePart

namespace ReadsAs

variable {part : CodePart} {parts others : List CodePart} {t rest rest' front back : Text}

theorem append_eq (h : ReadsAs t parts rest) : t = parts.flatMap CodePart.text ++ rest := by
  induction h with
  | done => rfl
  | part _ _ ih => rw [ih, List.flatMap_cons, List.append_assoc]

/-- Code is read as parts until it ends or comes to a closing mark outside of them. -/
theorem exists_parts (t : Text) : ∃ parts rest, ReadsAs t parts rest ∧ (rest = [] ∨ closingMark <+: rest) := by
  induction hlength : t.length using Nat.strongRecOn generalizing t with
  | ind n ih =>
    by_cases hend : t = [] ∨ closingMark <+: t
    · exact ⟨[], t, .done, hend⟩
    · obtain ⟨hne, hclose⟩ := not_or.1 hend
      obtain ⟨part, u, rfl, hwhole⟩ := CodePart.exists_whole hne hclose
      have hpos := List.length_pos_iff.2 hwhole.text_ne_nil
      rw [List.length_append] at hlength
      obtain ⟨parts, rest, hreads, hrest⟩ := ih u.length (by omega) u rfl
      exact ⟨part :: parts, rest, .part hwhole hreads, hrest⟩

/-- Of two readings of the same code one goes on where the other stops. -/
theorem prefix_or_prefix (h : ReadsAs t parts rest) (h' : ReadsAs t others rest') :
    parts <+: others ∨ others <+: parts := by
  induction h generalizing others with
  | done => exact .inl List.nil_prefix
  | @part part parts u rest hwhole _ ih =>
    generalize ht : part.text ++ u = t at h'
    cases h' with
    | done => exact .inr List.nil_prefix
    | @part other others u' rest' hwhole' hreads' =>
      obtain rfl := hwhole.unique hwhole' ht
      obtain rfl := List.append_cancel_left ht
      rcases ih hreads' with hprefix | hprefix
      · exact .inl (List.cons_prefix_cons.2 ⟨rfl, hprefix⟩)
      · exact .inr (List.cons_prefix_cons.2 ⟨rfl, hprefix⟩)

/-- The end of a part is no place that a string or a comment hides. -/
theorem not_hidesPlace (h : ReadsAs t parts rest) : ¬ HidesPlace t (parts.flatMap CodePart.text) := by
  rintro ⟨others, part, rest', inside, hreads, -, hne, hproper, ⟨more, hmore⟩, hfront⟩
  have hlength := congrArg List.length hfront
  have hpart := congrArg List.length hmore
  have hpos := List.length_pos_iff.2 hne
  have hposmore : more ≠ [] := by
    rintro rfl
    exact hproper (by simpa using hmore)
  have hposmore := List.length_pos_iff.2 hposmore
  simp only [List.length_append] at hlength hpart
  -- One reading goes on where the other stops, so a place strictly inside a part is no end of parts.
  have short : ∀ {ps qs : List CodePart}, ps <+: qs →
      (ps.flatMap CodePart.text).length ≤ (qs.flatMap CodePart.text).length := by
    rintro ps _ ⟨ss, rfl⟩
    simp only [List.flatMap_append, List.length_append]
    omega
  rcases h.prefix_or_prefix hreads with hprefix | hprefix
  · rcases List.prefix_concat_iff.1 hprefix with heq | hprefix
    · have := congrArg (fun ps : List CodePart => (ps.flatMap CodePart.text).length) heq
      simp only [List.flatMap_append, List.flatMap_cons, List.flatMap_nil, List.append_nil, List.length_append] at this
      omega
    · have := short hprefix
      omega
  · have := short hprefix
    simp only [List.flatMap_append, List.flatMap_cons, List.flatMap_nil, List.append_nil, List.length_append] at this
    omega

/-- A closing mark that begins before the end of what is read is hidden. -/
theorem hidesPlace (h : ReadsAs t parts rest) (ht : t = front ++ closingMark ++ back)
    (hlt : front.length < (parts.flatMap CodePart.text).length) : HidesPlace t front := by
  induction h generalizing front with
  | done => exact absurd hlt (Nat.not_lt_zero _)
  | @part part parts u rest hwhole hreads ih =>
    rw [List.append_assoc] at ht
    by_cases hpart : front.length < part.text.length
    case pos =>
      obtain ⟨hhides, hne⟩ := hwhole.hides_of_mark ht hpart
      refine ⟨[], part, u, front, .part hwhole .done, hhides, hne, ?_, ?_, rfl⟩
      · rintro rfl
        exact Nat.lt_irrefl _ hpart
      · exact List.prefix_of_prefix_length_le ⟨_, ht.symm⟩ ⟨u, rfl⟩ (Nat.le_of_lt hpart)
    case neg =>
      have hprefix : part.text <+: front :=
        List.prefix_of_prefix_length_le ⟨u, rfl⟩ ⟨_, ht.symm⟩ (Nat.le_of_not_lt hpart)
      obtain ⟨front, rfl⟩ := hprefix
      rw [List.append_assoc, List.append_cancel_left_eq] at ht
      rw [List.flatMap_cons, List.length_append, List.length_append] at hlt
      obtain ⟨others, other, rest', inside, hreads', hhides, hne, hproper, hinside, rfl⟩ :=
        ih (by rw [ht, List.append_assoc]) (by omega)
      exact ⟨part :: others, other, rest', inside, .part hwhole hreads', hhides, hne, hproper, hinside,
        by rw [List.flatMap_cons, List.append_assoc]⟩

/-- Code that comes to a closing mark outside its parts ends there. -/
theorem closesAfter (h : ReadsAs t parts (closingMark ++ back)) :
    ClosesAfter t (parts.flatMap CodePart.text) back ∧
      ∀ front back', ClosesAfter t front back' → (parts.flatMap CodePart.text).length ≤ front.length := by
  refine ⟨⟨by rw [h.append_eq, List.append_assoc], h.not_hidesPlace⟩, ?_⟩
  rintro front back' ⟨ht, hhides⟩
  exact Nat.le_of_not_lt fun hlt => hhides (h.hidesPlace ht hlt)

/-- Code that is read to the end has no closing mark outside strings and block comments. -/
theorem not_closesAfter (h : ReadsAs t parts []) (front back : Text) : ¬ ClosesAfter t front back := by
  rintro ⟨ht, hhides⟩
  refine hhides (h.hidesPlace ht ?_)
  have hlength := congrArg List.length (h.append_eq.symm.trans ht)
  simp only [List.length_append, closingMark, List.length_cons, List.length_nil] at hlength
  omega

end ReadsAs

end Template
