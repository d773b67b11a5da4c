import Template.Text.Utf8

/-! # Groups in parentheses

A group is a pair of parentheses with a balanced inside. It is found by counting: each parenthesis
outside quotes moves a counter up or down, and the group that begins at the head ends where the counter
is first back at zero. Counting finds a group exactly when there is one, and until then the counter
stays above zero.
-/

namespace Template

namespace Bytes

/-- The byte of a character that takes only one. -/
def ascii (c : Char) : UInt8 := c.val.toUInt8

/-- What may stand between two quotes: a backslash takes the byte after it. -/
inductive QuotedBytes (quote : UInt8) : Bytes → Prop where
  | nil : QuotedBytes quote []
  | escape {rest : Bytes} (b : UInt8) (h : QuotedBytes quote rest) : QuotedBytes quote (ascii '\\' :: b :: rest)
  | plain {b : UInt8} {rest : Bytes} (hquote : b ≠ quote) (hescape : b ≠ ascii '\\') (h : QuotedBytes quote rest) :
      QuotedBytes quote (b :: rest)

/-- The bytes that a group is made of besides what is in quotes and the plain ones. -/
def groupMarks : Bytes := [ascii '(', ascii ')', ascii '\'', ascii '"']

/-- A sequence of groups, quoted stretches and plain bytes. -/
inductive Balanced : Bytes → Prop where
  | nil : Balanced []
  | group {inside rest : Bytes} (hinside : Balanced inside) (hrest : Balanced rest) :
      Balanced (ascii '(' :: (inside ++ ascii ')' :: rest))
  | quoted {quote : UInt8} {body rest : Bytes} (hquote : quote = ascii '\'' ∨ quote = ascii '"')
      (hbody : QuotedBytes quote body) (hrest : Balanced rest) : Balanced (quote :: (body ++ quote :: rest))
  | plain {b : UInt8} {rest : Bytes} (hb : b ∉ groupMarks) (hrest : Balanced rest) : Balanced (b :: rest)

def IsGroup (bytes : Bytes) : Prop := ∃ inside, Balanced inside ∧ bytes = ascii '(' :: (inside ++ [ascii ')'])

end Bytes

/-- Where a reader of groups stands among quotes. -/
inductive QuoteMode where
  | code
  | quoted (quote : UInt8)
  /-- Behind a backslash in quotes. -/
  | escaped (quote : UInt8)
  deriving DecidableEq, Repr

/-- How many groups are open, and where the reader stands. -/
structure Nesting where
  depth : Int
  mode : QuoteMode
  deriving DecidableEq, Repr

namespace Nesting

open Bytes

/-- The state before the first byte. -/
def start : Nesting := ⟨0, .code⟩

/-- The state after one more byte. -/
def next : Nesting → UInt8 → Nesting
  | ⟨depth, .escaped quote⟩, _ => ⟨depth, .quoted quote⟩
  | ⟨depth, .quoted quote⟩, b =>
    if b = ascii '\\' then ⟨depth, .escaped quote⟩ else if b = quote then ⟨depth, .code⟩ else ⟨depth, .quoted quote⟩
  | ⟨depth, .code⟩, b =>
    if b = ascii '\'' ∨ b = ascii '"' then ⟨depth, .quoted b⟩
    else if b = ascii '(' then ⟨depth + 1, .code⟩
    else if b = ascii ')' then ⟨depth - 1, .code⟩
    else ⟨depth, .code⟩

/-- The state after some more bytes. -/
def after (state : Nesting) (bytes : Bytes) : Nesting := bytes.foldl next state

/-- How many bytes are read until no group is open. -/
def closes? : Nesting → Bytes → Option Nat
  | _, [] => none
  | state, b :: bytes =>
    if (state.next b).depth = 0 then some 1 else (closes? (state.next b) bytes).map (· + 1)

section

variable {state : Nesting} {depth : Int} {quote b : UInt8} {body inside bytes rest : Bytes} {count : Nat}

theorem closes?_cons {later : Nesting} (hnext : state.next b = later) (hdepth : later.depth ≠ 0) :
    closes? state (b :: bytes) = (closes? later bytes).map (· + 1) := by
  rw [closes?, hnext, if_neg hdepth]

theorem next_open : next ⟨depth, .code⟩ (ascii '(') = ⟨depth + 1, .code⟩ := rfl

theorem next_close : next ⟨depth, .code⟩ (ascii ')') = ⟨depth - 1, .code⟩ := rfl

theorem next_plain (hb : b ∉ groupMarks) : next ⟨depth, .code⟩ b = ⟨depth, .code⟩ := by
  simp only [groupMarks, List.mem_cons, List.not_mem_nil, or_false, not_or] at hb
  simp only [next, hb, or_self, if_false]

theorem next_quoteMark (hquote : quote = ascii '\'' ∨ quote = ascii '"') :
    next ⟨depth, .code⟩ quote = ⟨depth, .quoted quote⟩ := if_pos hquote

theorem next_backslash : next ⟨depth, .quoted quote⟩ (ascii '\\') = ⟨depth, .escaped quote⟩ := rfl

theorem next_quoted (hescape : b ≠ ascii '\\') :
    next ⟨depth, .quoted quote⟩ b = ⟨depth, if b = quote then .code else .quoted quote⟩ := by
  rw [next, if_neg hescape]
  split <;> rfl

theorem ne_backslash (hquote : quote = ascii '\'' ∨ quote = ascii '"') : quote ≠ ascii '\\' := by
  rcases hquote with rfl | rfl <;> decide

theorem closes?_quotedBytes (hdepth : depth ≠ 0) (hescape : quote ≠ ascii '\\') (h : QuotedBytes quote body) :
    closes? ⟨depth, .quoted quote⟩ (body ++ quote :: rest) =
      (closes? ⟨depth, .code⟩ rest).map (· + (body.length + 1)) := by
  induction h with
  | nil =>
    have hnext : next ⟨depth, .quoted quote⟩ quote = ⟨depth, .code⟩ := by rw [next_quoted hescape, if_pos rfl]
    rw [List.nil_append, closes?_cons hnext hdepth]
    rfl
  | @escape later b _ ih =>
    have hnext : next ⟨depth, .escaped quote⟩ b = ⟨depth, .quoted quote⟩ := rfl
    rw [List.cons_append, closes?_cons next_backslash hdepth,
      List.cons_append, closes?_cons hnext hdepth, ih]
    simp only [Option.map_map, Function.comp_def, List.length_cons, Nat.add_assoc]
  | @plain b later hne hplain _ ih =>
    have hnext : next ⟨depth, .quoted quote⟩ b = ⟨depth, .quoted quote⟩ := by
      rw [next_quoted hplain, if_neg hne]
    rw [List.cons_append, closes?_cons hnext hdepth, ih]
    simp only [Option.map_map, Function.comp_def, List.length_cons, Nat.add_assoc]

/-- A balanced stretch is passed over. -/
theorem closes?_balanced (hdepth : 0 < depth) (h : Balanced inside) (rest : Bytes) :
    closes? ⟨depth, .code⟩ (inside ++ rest) = (closes? ⟨depth, .code⟩ rest).map (· + inside.length) := by
  induction h generalizing depth rest with
  | nil => simp
  | @group inner later _ _ ihInside ihRest =>
    have hdeeper : depth + 1 ≠ 0 := by omega
    have hhere : depth ≠ 0 := by omega
    have hback : next ⟨depth + 1, .code⟩ (ascii ')') = ⟨depth, .code⟩ := by
      rw [next_close, Int.add_sub_cancel]
    rw [List.cons_append, List.append_assoc, List.cons_append, closes?_cons next_open hdeeper,
      ihInside (by omega), closes?_cons hback hhere, ihRest hdepth]
    simp only [Option.map_map, Function.comp_def, List.length_cons, List.length_append]
    congr 1
    funext n
    omega
  | @quoted quote body later hquote hbody _ ih =>
    have hhere : depth ≠ 0 := by omega
    rw [List.cons_append, List.append_assoc, List.cons_append, closes?_cons (next_quoteMark hquote) hhere,
      closes?_quotedBytes hhere (ne_backslash hquote) hbody, ih hdepth]
    simp only [Option.map_map, Function.comp_def, List.length_cons, List.length_append]
    congr 1
    funext n
    omega
  | plain hb _ ih =>
    have hhere : depth ≠ 0 := by omega
    rw [List.cons_append, closes?_cons (next_plain hb) hhere, ih hdepth]
    simp only [Option.map_map, Function.comp_def, List.length_cons, Nat.add_assoc]

/-- A group at the head is found, whatever follows it. -/
theorem closes?_group {group : Bytes} (h : IsGroup group) (rest : Bytes) :
    closes? start (group ++ rest) = some group.length := by
  obtain ⟨inside, hinside, rfl⟩ := h
  have hclosed : closes? ⟨1, .code⟩ (ascii ')' :: rest) = some 1 := if_pos rfl
  have hopened : next start (ascii '(') = ⟨1, .code⟩ := rfl
  rw [List.cons_append, List.append_assoc, List.cons_append, List.nil_append, closes?_cons hopened (by decide),
    closes?_balanced (by decide) hinside, hclosed]
  simp only [Option.map_some, List.length_cons, List.length_append, List.length_nil, Nat.add_comm]

/-- The bytes close the innermost group and `groups` more around it. -/
def Closing : (groups : Nat) → Bytes → Prop
  | 0, bytes => ∃ inside, Balanced inside ∧ bytes = inside ++ [ascii ')']
  | groups + 1, bytes => ∃ inside rest, Balanced inside ∧ Closing groups rest ∧ bytes = inside ++ ascii ')' :: rest

/-- What stands in front of a closing stretch inside the innermost group. -/
theorem Closing.prepend {groups : Nat} {front : Bytes}
    (hfront : ∀ inside, Balanced inside → Balanced (front ++ inside)) (h : Closing groups bytes) :
    Closing groups (front ++ bytes) := by
  cases groups with
  | zero =>
    obtain ⟨inside, hinside, rfl⟩ := h
    exact ⟨front ++ inside, hfront inside hinside, by rw [List.append_assoc]⟩
  | succ groups =>
    obtain ⟨inside, rest, hinside, hrest, rfl⟩ := h
    exact ⟨front ++ inside, rest, hfront inside hinside, hrest, by rw [List.append_assoc]⟩

theorem Closing.opens {groups : Nat} (h : Closing (groups + 1) bytes) : Closing groups (ascii '(' :: bytes) := by
  obtain ⟨inside, rest, hinside, hrest, rfl⟩ := h
  have hfront : ∀ later, Balanced later → Balanced (ascii '(' :: (inside ++ [ascii ')']) ++ later) := by
    intro later hlater
    simpa using Balanced.group hinside hlater
  simpa using hrest.prepend hfront

theorem Closing.quotes {groups : Nat} (hquote : quote = ascii '\'' ∨ quote = ascii '"')
    (hbody : QuotedBytes quote body) (h : Closing groups rest) : Closing groups (quote :: (body ++ quote :: rest)) := by
  have hfront : ∀ later, Balanced later → Balanced (quote :: (body ++ [quote]) ++ later) := by
    intro later hlater
    simpa using Balanced.quoted hquote hbody hlater
  simpa using h.prepend hfront

/-- What a stretch that brings the counter to zero is, from each state with groups open. -/
def Finishes (groups : Nat) : QuoteMode → Bytes → Prop
  | .code, bytes => Closing groups bytes
  | .quoted quote, bytes => ∃ body rest, QuotedBytes quote body ∧ Closing groups rest ∧ bytes = body ++ quote :: rest
  | .escaped quote, bytes => ∃ b body rest, QuotedBytes quote body ∧ Closing groups rest ∧
      bytes = b :: (body ++ quote :: rest)

theorem closes?_cons_eq_some (h : closes? state (b :: bytes) = some count) :
    ((state.next b).depth = 0 ∧ count = 1) ∨
      ((state.next b).depth ≠ 0 ∧ ∃ more, closes? (state.next b) bytes = some more ∧ count = more + 1) := by
  rw [closes?] at h
  split at h
  case isTrue hzero => exact .inl ⟨hzero, (Option.some.inj h).symm⟩
  case isFalse hdepth =>
    obtain ⟨more, hmore, hcount⟩ := Option.map_eq_some_iff.1 h
    exact .inr ⟨hdepth, more, hmore, hcount.symm⟩

/-- A byte closes the last open group, or it goes in front of what finishes from the state after it. -/
theorem next_cases (groups : Nat) (mode : QuoteMode) (b : UInt8) :
    (groups = 0 ∧ mode = .code ∧ b = ascii ')') ∨
      ∃ (opened : Nat) (after : QuoteMode), next ⟨groups + 1, mode⟩ b = ⟨opened + 1, after⟩ ∧
        ∀ rest, Finishes opened after rest → Finishes groups mode (b :: rest) := by
  cases mode with
  | escaped quote =>
    refine .inr ⟨groups, .quoted quote, rfl, ?_⟩
    rintro - ⟨body, rest, hbody, hrest, rfl⟩
    exact ⟨b, body, rest, hbody, hrest, rfl⟩
  | quoted quote =>
    by_cases hescape : b = ascii '\\'
    · subst hescape
      refine .inr ⟨groups, .escaped quote, rfl, ?_⟩
      rintro - ⟨d, body, rest, hbody, hrest, rfl⟩
      exact ⟨_, rest, .escape d hbody, hrest, rfl⟩
    · have hnext := @next_quoted (groups + 1) quote b hescape
      by_cases hquote : b = quote
      · rw [if_pos hquote] at hnext
        exact .inr ⟨groups, .code, hnext, fun rest hrest => ⟨[], rest, .nil, hrest, by rw [hquote]; rfl⟩⟩
      · rw [if_neg hquote] at hnext
        refine .inr ⟨groups, .quoted quote, hnext, ?_⟩
        rintro - ⟨body, rest, hbody, hrest, rfl⟩
        exact ⟨_, rest, .plain hquote hescape hbody, hrest, rfl⟩
  | code =>
    by_cases hquote : b = ascii '\'' ∨ b = ascii '"'
    · refine .inr ⟨groups, .quoted b, next_quoteMark hquote, ?_⟩
      rintro - ⟨body, rest, hbody, hrest, rfl⟩
      exact hrest.quotes hquote hbody
    by_cases hopens : b = ascii '('
    · subst hopens
      exact .inr ⟨groups + 1, .code, rfl, fun _ hrest => Closing.opens hrest⟩
    by_cases hcloses : b = ascii ')'
    · subst hcloses
      cases groups with
      | zero => exact .inl ⟨rfl, rfl, rfl⟩
      | succ groups =>
        have hnext : next ⟨(groups + 1 : Nat) + 1, .code⟩ (ascii ')') = ⟨groups + 1, .code⟩ := by
          rw [next_close, Int.add_sub_cancel]
          rfl
        exact .inr ⟨groups, .code, hnext, fun rest hrest => ⟨[], rest, .nil, hrest, rfl⟩⟩
    · have hplain : b ∉ groupMarks := by simp_all [groupMarks]
      have hfront : ∀ inside, Balanced inside → Balanced ([b] ++ inside) := fun _ hinside => .plain hplain hinside
      exact .inr ⟨groups, .code, next_plain hplain, fun _ hrest => Closing.prepend hfront hrest⟩

/-- Only a closing parenthesis outside quotes brings the counter down. -/
theorem finishes_of_closes? {groups : Nat} {mode : QuoteMode}
    (h : closes? ⟨groups + 1, mode⟩ bytes = some count) :
    count ≤ bytes.length ∧ Finishes groups mode (bytes.take count) := by
  induction bytes generalizing groups mode count with
  | nil => cases h
  | cons b bytes ih =>
    rcases next_cases groups mode b with ⟨rfl, rfl, rfl⟩ | ⟨opened, after, hnext, hfinishes⟩
    · rcases closes?_cons_eq_some h with ⟨-, rfl⟩ | ⟨hdepth, -⟩
      · exact ⟨Nat.succ_le_succ (Nat.zero_le _), [], .nil, rfl⟩
      · exact absurd rfl hdepth
    · have hdepth : (opened : Int) + 1 ≠ 0 := by omega
      rcases closes?_cons_eq_some h with ⟨hzero, -⟩ | ⟨-, more, hmore, rfl⟩
      · rw [hnext] at hzero
        exact absurd hzero hdepth
      · rw [hnext] at hmore
        obtain ⟨hlength, hrest⟩ := ih hmore
        rw [List.take_succ_cons]
        exact ⟨Nat.succ_le_succ hlength, hfinishes _ hrest⟩

/-- What the counter finds behind an opening parenthesis is a group. -/
theorem isGroup_of_closes? (h : closes? start (ascii '(' :: bytes) = some count) :
    count ≤ (ascii '(' :: bytes).length ∧ IsGroup ((ascii '(' :: bytes).take count) := by
  rcases closes?_cons_eq_some h with ⟨hzero, -⟩ | ⟨-, more, hmore, rfl⟩
  · exact absurd hzero (by decide)
  · have hopened : closes? ⟨(0 : Nat) + 1, .code⟩ bytes = some more := hmore
    obtain ⟨hlength, inside, hinside, htake⟩ := finishes_of_closes? hopened
    exact ⟨Nat.succ_le_succ hlength, inside, hinside, by rw [List.take_succ_cons, htake]⟩

theorem depth_next_nonneg (h : 0 < state.depth) (b : UInt8) : 0 ≤ (state.next b).depth := by
  obtain ⟨depth, mode⟩ := state
  dsimp only at h
  cases mode <;> grind [next]

/-- As long as the counter is not back at zero it is above zero. -/
theorem depth_after_pos (hdepth : 0 < state.depth) :
    (∀ count, closes? state bytes = some count → (∀ n < count, 0 < (state.after (bytes.take n)).depth) ∧
      (state.after (bytes.take count)).depth = 0) ∧
    (closes? state bytes = none → ∀ n, 0 < (state.after (bytes.take n)).depth) := by
  induction bytes generalizing state with
  | nil => simpa [closes?, after] using hdepth
  | cons b bytes ih =>
    have hnext := depth_next_nonneg hdepth b
    have hcons : ∀ n, state.after ((b :: bytes).take (n + 1)) = (state.next b).after (bytes.take n) := fun _ => rfl
    have hzero : state.after ((b :: bytes).take 0) = state := rfl
    refine ⟨fun count h => ?_, fun h n => ?_⟩
    · rcases closes?_cons_eq_some h with ⟨hclosed, rfl⟩ | ⟨hopen, more, hmore, rfl⟩
      · refine ⟨fun n hn => ?_, ?_⟩
        · obtain rfl : n = 0 := by omega
          rwa [hzero]
        · rw [hcons]
          exact hclosed
      · obtain ⟨hbefore, hend⟩ := (ih (by omega)).1 more hmore
        refine ⟨fun n hn => ?_, by rw [hcons, hend]⟩
        cases n with
        | zero => rwa [hzero]
        | succ n => exact hcons n ▸ hbefore n (by omega)
    · cases n with
      | zero => rwa [hzero]
      | succ n =>
        rw [closes?] at h
        split at h
        case isTrue => cases h
        case isFalse hopen => exact hcons n ▸ (ih (by omega)).2 (Option.map_eq_none_iff.1 h) n

end

end Nesting

end Template
