import LoxTokens.Proofs.Fits
import LoxTokens.Scanner.Basic

/-!
# Runs of the scanner

`Scanner.next` is a loop: it reads spans until one of them makes an item.  This file takes the
loop apart, first into rounds of one span each and then into calls of one item each, and puts whole
runs together again.

* `Span.Yields line s after i` — what the item of a span can be; `Fits.yields` says that it can be
  nothing else.
* `Scanner.past s w` — the scanner after a round that read the text `w`.
* `Scanner.round s` — what one round gives.  `next_eq_round` says that a call of `next` is a round,
  followed by another call if the round does not end it, and `next_of_fits` says it in front of a
  span.
* `rounds_induction` — what holds at the end of the source and is carried back over a round holds
  of every scanner.
* `items_eq` — all items to come are the items of the spans to come, then the end of the file.
* `Scanner.skip n s` — the scanner after `n` calls of `next`; `getElem?_items` says that the call
  after them gives the item with number `n`.
* `Scanner.StandsIn source before s` — the invariant of every run: what the scanner has read is the
  text `before`, and its offset and its line are those of the end of `before`.  `StandsIn.next` is
  what one call does to it, and `exists_standsIn_skip` what a whole run does.
-/

set_option autoImplicit false

namespace LoxTokens

/-! ## The items of spans -/

/-- A word is a keyword if it is spelled like one, and an identifier if not. -/
theorem Span.wordKind_cases (o : Options) (w : Text) :
    (∃ k, Keyword.ofText? o.keywordCase w = some k ∧ wordKind o w = .keyword k) ∨
      Keyword.ofText? o.keywordCase w = none ∧ wordKind o w = .identifier := by
  rw [wordKind]
  cases Keyword.ofText? o.keywordCase w with
  | none => exact .inr ⟨rfl, rfl⟩
  | some k => exact .inl ⟨k, rfl, rfl⟩

/-- What stood in the source for a token: its lexeme, and for a string also the quotes. -/
def Token.source (t : Token) : Text :=
  match t.kind with
  | .string _ => '"' :: t.lexeme ++ ['"']
  | _ => t.lexeme

namespace Span

/-- The item of a span of digits, by the value of the digits. -/
theorem item?_digits {ds : Text} (h : IsDigits ds) (o : Options) (line : Nat) :
    (digits ds).item? o line = some (if Decimal.ofDigits ds < Number.integerBound then
      .token ⟨.number (.integer (Int64.ofNat (Decimal.ofDigits ds))), ds, line⟩
      else .error ⟨.invalidNumber ds, line⟩) := by
  by_cases hv : Decimal.ofDigits ds < Number.integerBound
  · have hn : Number.ofDigits? ds = some (.integer (Int64.ofNat (Decimal.ofDigits ds))) := if_pos hv
    rw [if_pos hv, item?, hn]
    rfl
  · have hn : Number.ofDigits? ds = none := if_neg hv
    rw [if_neg hv, item?, hn, text, h.newlines_eq]
    rfl

/-- What the item of a span can be, where the span starts on the given line and stands in front of
the given text. -/
inductive Yields (line : Nat) : Span → Text → Item → Prop
  | token {s : Span} {after : Text} {t : Token} (hkind : t.kind ≠ .endOfFile)
      (hline : t.line = line) (hsource : t.source = s.text) : Yields line s after (.token t)
  | stray {c : Char} {after : Text} :
      Yields line (.stray c) after (.error ⟨.unexpectedCharacter c, line⟩)
  | digits {ds after : Text} (hds : IsDigits ds) :
      Yields line (.digits ds) after (.error ⟨.invalidNumber ds, line⟩)
  | unclosed {body : Text} (hbody : '"' ∉ body) : Yields line (.unclosed body) []
      (.error ⟨.unterminatedString, line + (Span.unclosed body).text.newlines⟩)

theorem Yields.kind_ne_endOfFile {line : Nat} {s : Span} {after : Text} {t : Token}
    (h : s.Yields line after (.token t)) : t.kind ≠ .endOfFile := by
  cases h with
  | token hkind hline hsource => exact hkind

theorem Yields.source_eq {line : Nat} {s : Span} {after : Text} {t : Token}
    (h : s.Yields line after (.token t)) : t.source = s.text := by
  cases h with
  | token hkind hline hsource => exact hsource

/-- **The items of spans.**  A token stands for the text of its span on the line where the span
starts, and there are three errors. -/
theorem Fits.yields {o : Options} {s : Span} {line : Nat} {after : Text} {i : Item}
    (h : s.Fits after) (hi : s.item? o line = some i) : s.Yields line after i := by
  cases h with
  | separator hc => cases hi
  | comment hbody hafter => cases hi
  | punct hp => cases hi; exact Yields.token (by simp) rfl rfl
  | quoted hbody =>
    rw [item?] at hi
    split at hi
    · cases hi
    · cases hi; exact Yields.token (by simp) rfl rfl
  | unclosed hbody => cases hi; exact Yields.unclosed hbody
  | digits hds hafter hpoint =>
    rw [item?_digits hds] at hi
    split at hi
    · cases hi; exact Yields.token (by simp) rfl rfl
    · cases hi; exact Yields.digits hds
  | fraction hwhole hpart hafter => cases hi; exact Yields.token (by simp) rfl rfl
  | @word w _ hw hafter =>
    rw [item?, tokenItem] at hi
    rcases wordKind_cases o w with ⟨k, -, hk⟩ | ⟨-, hk⟩
    · rw [hk] at hi
      cases hi; exact Yields.token (by simp) rfl rfl
    · rw [hk] at hi
      cases hi; exact Yields.token (by simp) rfl rfl
  | stray hseparator hquote hdigit hword hpunct =>
    rw [item?, text, newlines_of_isSeparator hseparator] at hi
    cases hi; exact Yields.stray

end Span

/-- The items of spans that follow each other, the first of which starts on the given line. -/
def Span.itemsFrom (o : Options) : Nat → List Span → List Item
  | _, [] => []
  | line, s :: ss => (s.item? o line).toList ++ itemsFrom o (line + s.text.newlines) ss

theorem Span.itemsFrom_append (o : Options) (line : Nat) (ss ts : List Span) :
    itemsFrom o line (ss ++ ts) =
      itemsFrom o line ss ++ itemsFrom o (line + Text.newlines (ss.flatMap text)) ts := by
  induction ss generalizing line with
  | nil => rfl
  | cons s ss ih =>
    rw [List.cons_append, itemsFrom, itemsFrom, ih, List.append_assoc, List.flatMap_cons,
      Text.newlines_append, Nat.add_assoc]

theorem Span.itemsFrom_spans_of_fits {s : Span} {after : Text} (h : s.Fits after) (o : Options)
    (line : Nat) : itemsFrom o line (spans (s.text ++ after)) =
      (s.item? o line).toList ++ itemsFrom o (line + s.text.newlines) (spans after) := by
  rw [spans_of_fits h, itemsFrom]

/-- Every item is that of a span which fits somewhere. -/
theorem exists_fits_of_mem_itemsFrom {o : Options} {ss : List Span} (h : Fitting ss) {line : Nat}
    {i : Item} (hi : i ∈ Span.itemsFrom o line ss) :
    ∃ s after line', Span.Fits s after ∧ s.item? o line' = some i := by
  induction h generalizing line with
  | nil => cases hi
  | @cons s ss hs hss ih =>
    rw [Span.itemsFrom, List.mem_append, Option.mem_toList] at hi
    rcases hi with hi | hi
    · exact ⟨s, _, line, hs, hi⟩
    · exact ih hi

/-- What the text `w` in front of `after` gives if it starts on the given line: the item of a span
that fits there, or the end of the file. -/
inductive Reading (o : Options) (line : Nat) : Text → Text → Item → Prop
  | span {s : Span} {after : Text} {i : Item} (hfits : s.Fits after)
      (hitem : s.item? o line = some i) : Reading o line s.text after i
  | endOfFile : Reading o line [] [] (.token (Token.endOfFile line))

namespace Scanner

/-! ## Rounds -/

/-- The scanner after it has read the text `w` as one span. -/
def past (s : Scanner) (w : Text) : Scanner :=
  { s with cursor := s.cursor.mark.advanceBy w.length }

@[simp] theorem options_past (s : Scanner) (w : Text) : (s.past w).options = s.options := rfl

@[simp] theorem start_past (s : Scanner) (w : Text) :
    (s.past w).cursor.start = s.cursor.current :=
  Cursor.start_advanceBy w.length s.cursor.mark

@[simp] theorem startLine_past (s : Scanner) (w : Text) :
    (s.past w).cursor.startLine = s.cursor.line :=
  Cursor.startLine_advanceBy w.length s.cursor.mark

section

variable {s : Scanner} {w after : Text}

theorem rest_past (h : s.cursor.rest = w ++ after) : (s.past w).cursor.rest = after := by
  rw [past, Cursor.rest_advanceBy, Cursor.rest_mark, h, List.drop_left]

theorem current_past (h : s.cursor.rest = w ++ after) :
    (s.past w).cursor.current = s.cursor.current + w.byteLength := by
  rw [past, Cursor.current_advanceBy, Cursor.rest_mark, h, List.take_left]
  rfl

theorem line_past (h : s.cursor.rest = w ++ after) :
    (s.past w).cursor.line = s.cursor.line + w.newlines := by
  rw [past, Cursor.line_advanceBy, Cursor.rest_mark, h, List.take_left]
  rfl

end

/-- One round of a call of `next`: what the call gives, if it ends with this round, and the scanner
after the round. -/
def round (s : Scanner) : Option (Option Item) × Scanner :=
  match s.cursor.rest with
  | [] =>
    if s.finished then (some none, { s with cursor := s.cursor.mark })
    else
      (some (some (.token (Token.endOfFile s.cursor.line))),
        { s with cursor := s.cursor.mark, finished := true })
  | c :: rest =>
    let w := Span.first c rest
    ((w.item? s.options s.cursor.line).map some, s.past w.text)

/-- A call at the end of the source gives the end of the file, but only once. -/
theorem next_of_rest_nil {s : Scanner} (h : s.cursor.rest = []) :
    s.next = if s.finished then (none, { s with cursor := s.cursor.mark })
      else (some (.token (Token.endOfFile s.cursor.line)),
        { s with cursor := s.cursor.mark, finished := true }) := by
  rw [next]
  split
  · rfl
  · next hrest => rw [Cursor.rest_mark, h] at hrest; cases hrest

/-- A call with input left is a round, and another call if the round gives no item. -/
theorem next_of_rest_cons {s : Scanner} {c : Char} {rest : Text} (h : s.cursor.rest = c :: rest) :
    s.next = match (Span.first c rest).item? s.options s.cursor.line with
      | some i => (some i, s.past (Span.first c rest).text)
      | none => (s.past (Span.first c rest).text).next := by
  rw [next]
  split
  · next hrest => rw [Cursor.rest_mark, h] at hrest; cases hrest
  · next hrest =>
    rw [Cursor.rest_mark, h] at hrest
    cases hrest
    rfl

/-- With input left, a round reads the first span. -/
theorem round_of_rest_cons {s : Scanner} {c : Char} {rest : Text} (h : s.cursor.rest = c :: rest) :
    s.round = (((Span.first c rest).item? s.options s.cursor.line).map some,
      s.past (Span.first c rest).text) := by
  rw [round, h]

/-- A call is a round, and another call if the round does not end it. -/
theorem next_eq_round (s : Scanner) : s.next =
    match s.round with
    | (some given, s') => (given, s')
    | (none, s') => s'.next := by
  cases hrest : s.cursor.rest with
  | nil =>
    rw [next_of_rest_nil hrest, round, hrest]
    by_cases hf : s.finished = true
    · simp [hf]
    · simp [hf]
  | cons c rest =>
    rw [next_of_rest_cons hrest, round, hrest]
    cases hi : (Span.first c rest).item? s.options s.cursor.line with
    | none => simp [hi]
    | some i => simp [hi]

/-- A call in front of a span is a round that reads the span, and another call if the span gives no
item. -/
theorem next_of_fits {s : Scanner} {w : Span} {after : Text} (h : s.cursor.rest = w.text ++ after)
    (hw : w.Fits after) : s.next = match w.item? s.options s.cursor.line with
      | some i => (some i, s.past w.text)
      | none => (s.past w.text).next := by
  obtain ⟨c, rest, htext⟩ := List.exists_cons_of_ne_nil hw.text_ne_nil
  have hrest : s.cursor.rest = c :: (rest ++ after) := by rw [h, htext, List.cons_append]
  have hfirst : Span.first c (rest ++ after) = w := Span.first_of_fits hw (hrest.symm.trans h)
  rw [next_of_rest_cons hrest, hfirst]

/-- **Induction on the rounds that are left.** -/
theorem rounds_induction {motive : Scanner → List Span → Prop}
    (done : ∀ s, s.cursor.rest = [] → motive s [])
    (round : ∀ s w after, s.cursor.rest = w.text ++ after → w.Fits after →
      motive (s.past w.text) (spans after) → motive s (w :: spans after))
    (s : Scanner) : motive s (spans s.cursor.rest) := by
  obtain ⟨source, hsource⟩ : ∃ source, s.cursor.rest = source := ⟨_, rfl⟩
  rw [hsource]
  fun_induction spans source generalizing s with
  | case1 => exact done s hsource
  | case2 c rest ih =>
    obtain ⟨after, hsplit, hfits⟩ := Span.first_spec c rest
    have hrest := hsource.trans hsplit
    have hdrop : (c :: rest).drop (Span.first c rest).text.length = after := by
      rw [hsplit, List.drop_left]
    rw [hdrop] at ih ⊢
    exact round s _ after hrest hfits (ih _ (rest_past hrest))

/-! ## Whole runs -/

theorem items_of_next_some {s s' : Scanner} {i : Item} (h : s.next = (some i, s')) :
    s.items = i :: s'.items := by
  rw [items]
  split
  · next hn => rw [h] at hn; cases hn
  · next hn => rw [h] at hn; cases hn; rfl

theorem items_of_next_none {s s' : Scanner} (h : s.next = (none, s')) : s.items = [] := by
  rw [items]
  split
  · rfl
  · next hn => rw [h] at hn; cases hn

/-- Nothing more comes once the end of the file has been given. -/
theorem items_of_finished {s : Scanner} (hrest : s.cursor.rest = []) (hf : s.finished = true) :
    s.items = [] := by
  have hn := next_of_rest_nil hrest
  rw [if_pos hf] at hn
  exact items_of_next_none hn

/-- What is to come depends on the next call only. -/
theorem items_congr {s t : Scanner} (h : s.next = t.next) : s.items = t.items := by
  rcases hn : t.next with ⟨_ | i, s'⟩
  · rw [items_of_next_none (h.trans hn), items_of_next_none hn]
  · rw [items_of_next_some (h.trans hn), items_of_next_some hn]

/-- A round adds the item of its span, if it has one, to the items to come. -/
theorem items_of_fits {s : Scanner} {w : Span} {after : Text} (h : s.cursor.rest = w.text ++ after)
    (hw : w.Fits after) :
    s.items = (w.item? s.options s.cursor.line).toList ++ (s.past w.text).items := by
  have hn := next_of_fits h hw
  cases hi : w.item? s.options s.cursor.line with
  | none =>
    rw [hi] at hn
    exact items_congr hn
  | some i =>
    rw [hi] at hn
    exact items_of_next_some hn

/-- **The items to come are those of the spans to come, and the end of the file.** -/
theorem items_eq {s : Scanner} (hf : s.finished = false) :
    s.items = Span.itemsFrom s.options s.cursor.line (spans s.cursor.rest) ++
      [.token (Token.endOfFile (s.cursor.line + s.cursor.rest.newlines))] := by
  induction s using rounds_induction with
  | done s hrest =>
    have hn := next_of_rest_nil hrest
    rw [hf, if_neg Bool.false_ne_true] at hn
    have hdone : { s with cursor := s.cursor.mark, finished := true }.items = [] :=
      items_of_finished hrest rfl
    rw [items_of_next_some hn, hdone, hrest]
    rfl
  | round s w after hrest hw ih =>
    rw [items_of_fits hrest hw, ih hf, Span.itemsFrom, options_past, line_past hrest,
      rest_past hrest, hrest, Text.newlines_append, List.append_assoc, Nat.add_assoc]

theorem items_ofText (o : Options) (source : Text) :
    (ofText o source).items = Span.itemsFrom o 1 (spans source) ++
      [.token (Token.endOfFile (1 + source.newlines))] :=
  items_eq rfl

theorem tokens_tokenize (o : Options) (source : Text) : (LoxTokens.tokenize o source).tokens =
    (Span.itemsFrom o 1 (spans source)).filterMap Item.token? ++
      [Token.endOfFile (1 + source.newlines)] := by
  rw [LoxTokens.tokenize, tokenize, items_ofText, Scan.ofItems_append]
  rfl

theorem errors_tokenize (o : Options) (source : Text) : (LoxTokens.tokenize o source).errors =
    (Span.itemsFrom o 1 (spans source)).filterMap Item.error? := by
  rw [LoxTokens.tokenize, tokenize, items_ofText, Scan.ofItems_append]
  exact List.append_nil _

/-- A scan without errors. -/
theorem tokenize_of_itemsFrom {o : Options} {source : Text} {ts : List Token}
    (h : Span.itemsFrom o 1 (spans source) = ts.map Item.token) :
    LoxTokens.tokenize o source = ⟨ts ++ [Token.endOfFile (1 + source.newlines)], []⟩ := by
  rw [LoxTokens.tokenize, tokenize, items_ofText, h, ← Scan.ofItems_map_token, List.map_append]
  rfl

/-! ## Calls -/

/-- The scanner after `n` calls of `next`. -/
def skip : Nat → Scanner → Scanner
  | 0, s => s
  | n + 1, s => skip n s.next.2

theorem skip_succ (n : Nat) (s : Scanner) : s.skip (n + 1) = (s.skip n).next.2 := by
  induction n generalizing s with
  | zero => rfl
  | succ n ih => exact ih s.next.2

/-- A call without an item leaves a scanner that has read everything. -/
theorem finished_of_next_none {s s' : Scanner} (h : s.next = (none, s')) :
    s'.cursor.rest = [] ∧ s'.finished = true := by
  fun_induction next s with
  | case1 s c hrest hf => cases h; exact ⟨hrest, hf⟩
  | case2 s c hrest hf => cases h
  | case3 s c x rest hrest span s₁ i hi => cases h
  | case4 s c x rest hrest span s₁ hi ih => exact ih h

/-- What is to come after `n` calls is what was to come, without the first `n` items. -/
theorem items_skip (s : Scanner) (n : Nat) : (s.skip n).items = s.items.drop n := by
  induction n generalizing s with
  | zero => rfl
  | succ n ih =>
    rcases hn : s.next with ⟨_ | i, s'⟩
    · obtain ⟨hrest, hf⟩ := finished_of_next_none hn
      rw [skip, hn, ih, items_of_finished hrest hf, items_of_next_none hn, List.drop_nil,
        List.drop_nil]
    · rw [skip, hn, ih, items_of_next_some hn, List.drop_succ_cons]

theorem head?_items (s : Scanner) : s.items.head? = s.next.1 := by
  rcases hn : s.next with ⟨_ | i, s'⟩
  · rw [items_of_next_none hn, List.head?_nil]
  · rw [items_of_next_some hn, List.head?_cons]

/-- The call after `n` others gives the item with number `n`. -/
theorem getElem?_items (s : Scanner) (n : Nat) : s.items[n]? = (s.skip n).next.1 := by
  rw [← List.head?_drop, ← items_skip, head?_items]

/-- Only the end of the file finishes a scan. -/
theorem finished_next {s : Scanner} (hf : s.finished = false)
    (h : ∀ t, s.next.1 = some (.token t) → t.kind ≠ .endOfFile) : s.next.2.finished = false := by
  fun_induction next s with
  | case1 s c hrest hf' => exact absurd (hf.symm.trans hf') Bool.false_ne_true
  | case2 s c hrest hf' => exact absurd rfl (h _ rfl)
  | case3 s c x rest hrest span s₁ i hi => exact hf
  | case4 s c x rest hrest span s₁ hi ih => exact ih hf h

/-! ## Where the scanner stands -/

/-- The scanner has read the text `before` of the source: the rest is left, and its position is that
of the end of `before`. -/
structure StandsIn (source before : Text) (s : Scanner) : Prop where
  source_eq : source = before ++ s.cursor.rest
  current_eq : s.cursor.current = before.byteLength
  line_eq : s.cursor.line = 1 + before.newlines

theorem standsIn_ofText (o : Options) (source : Text) : (ofText o source).StandsIn source [] :=
  ⟨rfl, rfl, rfl⟩

section

variable {source before : Text} {s : Scanner}

/-- A round keeps the invariant. -/
theorem StandsIn.past (h : s.StandsIn source before) {w after : Text}
    (hw : s.cursor.rest = w ++ after) : (s.past w).StandsIn source (before ++ w) where
  source_eq := by rw [rest_past hw, List.append_assoc, ← hw, h.source_eq]
  current_eq := by rw [current_past hw, h.current_eq, Text.byteLength_append]
  line_eq := by rw [line_past hw, h.line_eq, Text.newlines_append, Nat.add_assoc]

/-- **What one call does.**  It reads a gap that gives nothing and then the text of the item that it
gives, and keeps the position at which that text starts. -/
theorem StandsIn.next (h : s.StandsIn source before) : ∃ gap w,
    s.next.2.StandsIn source (before ++ gap ++ w) ∧
    s.next.2.options = s.options ∧
    s.next.2.cursor.start = (before ++ gap).byteLength ∧
    s.next.2.cursor.startLine = 1 + (before ++ gap).newlines ∧
    ∀ i, s.next.1 = some i →
      Reading s.options (1 + (before ++ gap).newlines) w s.next.2.cursor.rest i := by
  -- by induction on the rounds that are left: the gap is made of the spans without an item
  induction s using rounds_induction generalizing before with
  | done s hrest =>
    have hn := next_of_rest_nil hrest
    refine ⟨[], [], ?_⟩
    rw [List.append_nil, List.append_nil, hn]
    split
    · exact ⟨⟨h.source_eq, h.current_eq, h.line_eq⟩, rfl, h.current_eq, h.line_eq, by simp⟩
    · refine ⟨⟨h.source_eq, h.current_eq, h.line_eq⟩, rfl, h.current_eq, h.line_eq, ?_⟩
      rintro _ ⟨⟩
      rw [← h.line_eq]
      change Reading _ _ [] s.cursor.rest _
      rw [hrest]
      exact Reading.endOfFile
  | round s span after hrest hfits ih =>
    have hpast := h.past hrest
    have hn := next_of_fits hrest hfits
    cases hi : span.item? s.options s.cursor.line with
    | some i =>
      rw [hi] at hn
      refine ⟨[], span.text, ?_⟩
      rw [List.append_nil, hn]
      refine ⟨hpast, rfl, (start_past _ _).trans h.current_eq,
        (startLine_past _ _).trans h.line_eq, ?_⟩
      rintro _ ⟨⟩
      rw [rest_past hrest, ← h.line_eq]
      exact Reading.span hfits hi
    | none =>
      rw [hi] at hn
      obtain ⟨gap, w, hcall⟩ := ih hpast
      refine ⟨span.text ++ gap, w, ?_⟩
      rw [hn, ← List.append_assoc]
      exact hcall

end

/-- **The invariant of every run.** -/
theorem exists_standsIn_skip (o : Options) (source : Text) (n : Nat) :
    ∃ before, ((ofText o source).skip n).StandsIn source before ∧
      ((ofText o source).skip n).options = o := by
  induction n with
  | zero => exact ⟨[], standsIn_ofText o source, rfl⟩
  | succ n ih =>
    obtain ⟨before, hstands, ho⟩ := ih
    obtain ⟨gap, w, hnext, ho', -⟩ := hstands.next
    rw [skip_succ]
    exact ⟨_, hnext, ho'.trans ho⟩

end Scanner
end LoxTokens
