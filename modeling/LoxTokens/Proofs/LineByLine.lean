import LoxTokens.Proofs.LineBreak
import LoxTokens.Proofs.Lines
import LoxTokens.Proofs.Prompt

/-!
# Line by line

A source can be scanned as a whole, as a file is, or line by line, as at the prompt.  If no string
goes on behind the end of its line, both find the same, except that the prompt does not even look at
blank lines.  These hold no tokens, but they can hold errors: some white space of Unicode is unknown
to the scanner.

* `itemsFrom_lines` — the items of a source are those of its lines, each further down by the lines
  before it.
* `line_of_mem_itemsFrom` — all items of a line are on one line.
* `Fitting.exists_unexpected` — all there is in blank text are unexpected characters.
* `Scan.tokensBeforeEnd` — the tokens of a scan without the end of the file.
* `Scan.numbered` — scans of lines, with the numbers of their lines.
* `LexError.isSkipped lines e` — the error is about a character of a blank line.
* `prompt_agrees_with_file` — what the prompt prints line by line, and what is printed for a file.
-/

set_option autoImplicit false

namespace LoxTokens

/-! ## The items of lines -/

/-- **The items of a source, line by line.** -/
theorem itemsFrom_lines (o : Options) {t : Text}
    (hopen : ∀ l ∈ t.lines, ∀ body, .unclosed body ∉ spans l) (n : Nat) :
    Span.itemsFrom o (1 + n) (spans t) =
      (t.lines.zipIdx n).flatMap fun p ↦ Span.itemsFrom o (1 + p.2) (spans p.1) := by
  unfold Text.lines at hopen ⊢
  induction t using cutBehind_induction (x := '\n') generalizing n with
  | nil => simp [spans, Span.itemsFrom]
  | last l hne hx => simp
  | piece l t hx ih =>
    obtain ⟨hfirst, hrest⟩ := List.forall_mem_cons.1 hopen
    have hspans := spans_append (.inr (by simp)) hfirst t
    have hnewlines : Text.newlines (l ++ ['\n']) = 1 := by
      rw [Text.newlines_append, Text.newlines_eq_zero_iff.2 hx]
      rfl
    rw [List.append_assoc, List.singleton_append] at hspans
    rw [hspans, Span.itemsFrom_append, flatMap_text_spans, hnewlines, Nat.add_assoc, ih hrest,
      List.zipIdx_cons, List.flatMap_cons]

/-- A span that is no open string gives an item on the line where it starts. -/
theorem Span.Fits.line_eq_of_closed {o : Options} {line : Nat} {s : Span} {after : Text} {i : Item}
    (h : s.Fits after) (hs : ∀ body, s ≠ .unclosed body) (hi : s.item? o line = some i) :
    i.line = line := by
  cases h.yields hi with
  | token hkind hline hsource => exact hline
  | stray => rfl
  | digits hds => rfl
  | unclosed hbody => exact absurd rfl (hs _)

/-- **All items of a line are on one line.** -/
theorem line_of_mem_itemsFrom {o : Options} {ss : List Span} (h : Fitting ss)
    (hopen : ∀ body, .unclosed body ∉ ss) (hend : '\n' ∉ (ss.flatMap Span.text).dropLast)
    (line : Nat) : ∀ i ∈ Span.itemsFrom o line ss, i.line = line := by
  induction h with
  | nil => simp [Span.itemsFrom]
  | @cons s ss hs hss ih =>
    intro i hi
    rw [Span.itemsFrom, List.mem_append, Option.mem_toList] at hi
    rcases hi with hi | hi
    · refine hs.line_eq_of_closed (fun body hbody ↦ ?_) hi
      exact hopen body (hbody ▸ List.mem_cons_self)
    · by_cases hnil : ss = []
      · simp [hnil, Span.itemsFrom] at hi
      · -- more comes behind the span, so that it does not end the line
        have hne : ss.flatMap Span.text ≠ [] := fun h ↦ hnil (hss.eq_nil h)
        rw [List.flatMap_cons, List.dropLast_append_of_ne_nil hne, List.mem_append, not_or] at hend
        rw [Text.newlines_eq_zero_iff.2 hend.1, Nat.add_zero] at hi
        exact ih (fun body hbody ↦ hopen body (List.mem_cons_of_mem s hbody)) hend.2 i hi

/-! ## Blank lines -/

/-- What words and numbers are made of is not blank. -/
theorem isBlankChar_of_isWordPart {c : Char} (h : isWordPart c = true) : isBlankChar c = false := by
  have hcode : 48 ≤ c.toNat ∧ c.toNat ≤ 122 := by
    rcases Bool.or_eq_true_iff.1 h with hc | hc
    · rcases isWordStart_iff.1 hc with ⟨hlower, hupper⟩ | ⟨hlower, hupper⟩ | rfl
      · have hlower : 65 ≤ c.toNat := UInt32.le_iff_toNat_le.1 hlower
        have hupper : c.toNat ≤ 90 := UInt32.le_iff_toNat_le.1 hupper
        omega
      · have hlower : 97 ≤ c.toNat := UInt32.le_iff_toNat_le.1 hlower
        have hupper : c.toNat ≤ 122 := UInt32.le_iff_toNat_le.1 hupper
        omega
      · decide
    · have hdigit : 48 ≤ c.toNat ∧ c.toNat ≤ 57 := Char.isDigit_iff_toNat.1 hc
      omega
  simp only [isBlankChar, Blank.ranges, List.any_cons, List.any_nil, Bool.or_false,
    Bool.or_eq_false_iff, Bool.and_eq_false_iff, decide_eq_false_iff_not]
  omega

theorem isBlank_append (s t : Text) : isBlank (s ++ t) = (isBlank s && isBlank t) :=
  List.all_append

/-- A blank span is white space to the scanner as well, or it is not known to the scanner. -/
theorem Span.Fits.cases_of_isBlank {s : Span} {after : Text} (h : s.Fits after)
    (hblank : isBlank s.text = true) : (∃ c, s = .separator c) ∨ ∃ c, s = .stray c := by
  have hblanks : ∀ c ∈ s.text, isBlankChar c = true := List.all_eq_true.1 hblank
  have hparts : ∀ c ∈ s.text, ¬ isWordPart c = true := by
    intro c hc hpart
    have hvisible := isBlankChar_of_isWordPart hpart
    rw [hblanks c hc] at hvisible
    cases hvisible
  cases h with
  | separator hc => exact .inl ⟨_, rfl⟩
  | stray => exact .inr ⟨_, rfl⟩
  -- every other span has a character that can be seen
  | comment hbody hafter => exact absurd (hblanks '/' (by simp [text])) (by decide)
  | @punct p _ hp => cases p <;> exact absurd hblank (by decide)
  | quoted hbody => exact absurd (hblanks '"' (by simp [text])) (by decide)
  | unclosed hbody => exact absurd (hblanks '"' (by simp [text])) (by decide)
  | fraction hwhole hpart hafter => exact absurd (hblanks '.' (by simp [text])) (by decide)
  | digits hds hafter hpoint =>
    obtain ⟨d, ds, rfl, hd, -⟩ := hds.exists_cons
    exact absurd (by rw [isWordPart, hd, Bool.or_true]) (hparts d (by simp [text]))
  | word hw hafter =>
    obtain ⟨c, w, rfl, hc, -⟩ := hw
    exact absurd (by rw [isWordPart, hc, Bool.true_or]) (hparts c (by simp [text]))

/-- **All there is in blank text are unexpected characters.** -/
theorem Fitting.exists_unexpected {o : Options} {ss : List Span} (h : Fitting ss)
    (hblank : isBlank (ss.flatMap Span.text) = true) (line : Nat) :
    ∀ i ∈ Span.itemsFrom o line ss, ∃ c l, i = .error ⟨.unexpectedCharacter c, l⟩ := by
  induction h generalizing line with
  | nil => simp [Span.itemsFrom]
  | @cons s ss hs hss ih =>
    rw [List.flatMap_cons, isBlank_append, Bool.and_eq_true] at hblank
    obtain ⟨hfirst, hrest⟩ := hblank
    intro i hi
    rw [Span.itemsFrom, List.mem_append, Option.mem_toList] at hi
    rcases hi with hi | hi
    · rcases hs.cases_of_isBlank hfirst with ⟨c, rfl⟩ | ⟨c, rfl⟩
      · cases hi
      · exact ⟨c, _, (Option.some.inj hi).symm⟩
    · exact ih hrest _ i hi

theorem exists_unexpected_of_isBlank {o : Options} {t : Text} (h : isBlank t = true) (line : Nat) :
    ∀ i ∈ Span.itemsFrom o line (spans t), ∃ c l, i = .error ⟨.unexpectedCharacter c, l⟩ := by
  refine (fitting_spans t).exists_unexpected ?_ line
  rwa [flatMap_text_spans]

/-! ## Scans line by line -/

/-- The tokens of a scan without the end of the file. -/
def Scan.tokensBeforeEnd (s : Scan) : List Token := s.tokens.filter (!·.isEndOfFile)

/-- The scans of lines, each moved down to where its line is. -/
def Scan.numbered (ss : List Scan) : List Scan := ss.zipIdx.map fun p ↦ p.1.shift p.2

/-- Whether a fault is about a character that starts no token. -/
def Fault.isUnexpectedCharacter : Fault → Bool
  | unexpectedCharacter _ => true
  | _ => false

/-- Whether an error is about a character of a blank line, at which the prompt does not look. -/
def LexError.isSkipped (lines : List Text) (e : LexError) : Bool :=
  e.fault.isUnexpectedCharacter && lines[e.line - 1]?.any isBlank

section

variable {o : Options}

theorem tokensBeforeEnd_ofItems {ss : List Span} (h : Fitting ss) (line last : Nat) :
    (Scan.ofItems (Span.itemsFrom o line ss ++ [.token (Token.endOfFile last)])).tokensBeforeEnd =
      (Span.itemsFrom o line ss).filterMap Item.token? := by
  have hkept : ∀ t ∈ (Span.itemsFrom o line ss).filterMap Item.token?,
      (!t.isEndOfFile) = true := by
    intro t ht
    simpa [Token.isEndOfFile] using kind_ne_endOfFile_of_mem h (Scan.mem_tokens_ofItems.1 ht)
  rw [Scan.ofItems_append, Scan.tokensBeforeEnd, List.filter_append]
  have hlast : (Scan.ofItems [.token (Token.endOfFile last)]).tokens.filter (!·.isEndOfFile) = [] :=
    rfl
  rw [hlast, List.append_nil]
  exact List.filter_eq_self.2 hkept

theorem tokensBeforeEnd_tokenize (source : Text) : (tokenize o source).tokensBeforeEnd =
    (Span.itemsFrom o 1 (spans source)).filterMap Item.token? := by
  rw [tokenize, Scanner.tokenize, Scanner.items_ofText,
    tokensBeforeEnd_ofItems (fitting_spans source)]

theorem shift_tokenize (line : Text) (d : Nat) :
    (tokenize o line).shift d = Scan.ofItems (Span.itemsFrom o (1 + d) (spans line) ++
      [.token (Token.endOfFile (1 + line.newlines + d))]) := by
  rw [tokenize, Scanner.tokenize, Scanner.items_ofText, ← ofItems_map_shift, List.map_append,
    Span.itemsFrom_add]
  rfl

/-- There are no tokens in blank text. -/
theorem tokens_eq_nil_of_isBlank {line : Text} (h : isBlank line = true) (n : Nat) :
    (Span.itemsFrom o n (spans line)).filterMap Item.token? = [] := by
  refine List.filterMap_eq_nil_iff.2 fun i hi ↦ ?_
  obtain ⟨c, l, rfl⟩ := exists_unexpected_of_isBlank h n i hi
  rfl

/-- The prompt misses no token of a line. -/
theorem tokensBeforeEnd_ofLine (line : Text) (d : Nat) :
    ((Scan.ofLine o line).shift d).tokensBeforeEnd =
      (Span.itemsFrom o (1 + d) (spans line)).filterMap Item.token? := by
  by_cases hblank : isBlank line = true
  · rw [Scan.ofLine, if_pos hblank, tokens_eq_nil_of_isBlank hblank]
    rfl
  · rw [Scan.ofLine, if_neg hblank, shift_tokenize, tokensBeforeEnd_ofItems (fitting_spans line)]

theorem errors_ofLine (line : Text) (d : Nat) : ((Scan.ofLine o line).shift d).errors =
    if isBlank line then [] else (Span.itemsFrom o (1 + d) (spans line)).filterMap Item.error? := by
  by_cases hblank : isBlank line = true
  · rw [Scan.ofLine, if_pos hblank, if_pos hblank]
    rfl
  · rw [Scan.ofLine, if_neg hblank, if_neg hblank, shift_tokenize, Scan.ofItems_append]
    exact List.append_nil _

variable {source : Text} (hopen : ∀ line ∈ source.lines, ∀ body, .unclosed body ∉ spans line)

include hopen

/-- All items of a line name that line. -/
theorem line_of_mem_line {line : Text} {n : Nat} (hline : source.lines[n]? = some line) {i : Item}
    (hi : i ∈ Span.itemsFrom o (1 + n) (spans line)) : i.line = 1 + n := by
  have hmem : line ∈ source.lines := List.mem_of_getElem? hline
  refine line_of_mem_itemsFrom (fitting_spans line) (hopen line hmem) ?_ (1 + n) i hi
  rw [flatMap_text_spans]
  exact Text.newline_notMem_dropLast hmem

/-- An error of a line is skipped if and only if the line is blank. -/
theorem isSkipped_of_mem_line {line : Text} {n : Nat} (hline : source.lines[n]? = some line)
    {e : LexError} (he : .error e ∈ Span.itemsFrom o (1 + n) (spans line)) :
    e.isSkipped source.lines = isBlank line := by
  have hnumber : e.line = 1 + n := line_of_mem_line hopen hline he
  rw [LexError.isSkipped, hnumber, Nat.add_sub_cancel_left, hline, Option.any_some]
  by_cases hblank : isBlank line = true
  · obtain ⟨c, l, hunexpected⟩ := exists_unexpected_of_isBlank hblank (1 + n) _ he
    rw [Item.error.inj hunexpected, hblank]
    rfl
  · rw [Bool.eq_false_iff.2 hblank, Bool.and_false]

/-- The tokens that are found line by line are those of the source. -/
theorem tokensBeforeEnd_numbered :
    (Scan.numbered (source.lines.map (Scan.ofLine o))).flatMap Scan.tokensBeforeEnd =
      (tokenize o source).tokensBeforeEnd := by
  have hlines := itemsFrom_lines o hopen 0
  rw [Nat.add_zero] at hlines
  rw [tokensBeforeEnd_tokenize, hlines, List.filterMap_flatMap, Scan.numbered, List.zipIdx_map,
    List.flatMap_map, List.flatMap_map]
  exact List.flatMap_congr fun p _ ↦ tokensBeforeEnd_ofLine p.1 p.2

/-- The errors that are found line by line are those of the source, but for blank lines. -/
theorem errors_numbered :
    (Scan.numbered (source.lines.map (Scan.ofLine o))).flatMap Scan.errors =
      (tokenize o source).errors.filter (!·.isSkipped source.lines) := by
  have hlines := itemsFrom_lines o hopen 0
  rw [Nat.add_zero] at hlines
  rw [Scanner.errors_tokenize, hlines, List.filterMap_flatMap, List.filter_flatMap, Scan.numbered,
    List.zipIdx_map, List.flatMap_map, List.flatMap_map]
  refine List.flatMap_congr fun p hp ↦ ?_
  obtain ⟨line, n⟩ := p
  have hline : source.lines[n]? = some line := List.mk_mem_zipIdx_iff_getElem?.1 hp
  have hskipped : ∀ e ∈ (Span.itemsFrom o (1 + n) (spans line)).filterMap Item.error?,
      e.isSkipped source.lines = isBlank line :=
    fun e he ↦ isSkipped_of_mem_line hopen hline (Scan.mem_errors_ofItems.1 he)
  refine (errors_ofLine line n).trans ?_
  by_cases hblank : isBlank line = true
  · rw [if_pos hblank]
    refine (List.filter_eq_nil_iff.2 fun e he ↦ ?_).symm
    rw [hskipped e he, hblank]
    decide
  · rw [if_neg hblank]
    refine (List.filter_eq_self.2 fun e he ↦ ?_).symm
    rw [hskipped e he, Bool.eq_false_iff.2 hblank]
    rfl

/-- No token of the source is in a blank line. -/
theorem isBlank_line_of_mem_tokens {t : Token} (ht : t ∈ (tokenize o source).tokensBeforeEnd) :
    source.lines[t.line - 1]?.any isBlank = false := by
  have hlines := itemsFrom_lines o hopen 0
  rw [Nat.add_zero] at hlines
  rw [tokensBeforeEnd_tokenize, hlines, List.filterMap_flatMap] at ht
  obtain ⟨⟨line, n⟩, hp, ht⟩ := List.mem_flatMap.1 ht
  have hline : source.lines[n]? = some line := List.mk_mem_zipIdx_iff_getElem?.1 hp
  have hnumber : t.line = 1 + n := line_of_mem_line hopen hline (Scan.mem_tokens_ofItems.1 ht)
  rw [hnumber, Nat.add_sub_cancel_left, hline, Option.any_some, Bool.eq_false_iff]
  intro hblank
  rw [tokens_eq_nil_of_isBlank hblank] at ht
  cases ht

end

/-- **The prompt agrees with the scan of a file.**  Let no line of a text leave a string open.  What
the prompt prints for the text, with each line number moved to where the line is, are the tokens and
the errors that are printed for a file with that text, but for the end of the file after each line
and the unexpected characters of blank lines.  No token is in a blank line, so that none is
missed. -/
theorem prompt_agrees_with_file (f : FileRun) (p : PromptRun) (hoptions : p.options = f.options)
    (hclosed : ∀ line ∈ f.source.lines, ∀ e ∈ (tokenize f.options line).errors,
      e.fault ≠ .unterminatedString) (time : Text) :
    let lines := f.source.lines
    let answers := lines.map (Scan.ofLine f.options)
    (p.outcome f.source.bytes).output.stdout =
      answers.flatMap (fun s ↦ "> ".toList ++ s.tokens.flatMap Token.printed) ++ "> ".toList ∧
    (p.outcome f.source.bytes).output.stderrText time =
      answers.flatMap (fun s ↦ s.errors.flatMap LexError.printed) ∧
    f.output.stdout = f.scan.tokens.flatMap Token.printed ∧
    f.output.stderrText time = f.scan.errors.flatMap LexError.printed ∧
    (Scan.numbered answers).flatMap Scan.tokensBeforeEnd = f.scan.tokensBeforeEnd ∧
    (Scan.numbered answers).flatMap Scan.errors = f.scan.errors.filter (!·.isSkipped lines) ∧
    (∀ line ∈ lines, isBlank line = true → (tokenize f.options line).tokensBeforeEnd = []) ∧
    ∀ t ∈ f.scan.tokensBeforeEnd, lines[t.line - 1]?.any isBlank = false := by
  intro lines answers
  have hopen : ∀ line ∈ lines, ∀ body, .unclosed body ∉ spans line :=
    fun line hline ↦ unclosed_notMem_spans (hclosed line hline)
  have houtcome := p.outcome_bytes f.source
  rw [hoptions] at houtcome
  refine ⟨?_, ?_, f.stdout_output, f.stderrText_output time, tokensBeforeEnd_numbered hopen,
    errors_numbered hopen, ?_, fun t ht ↦ isBlank_line_of_mem_tokens hopen ht⟩
  · rw [houtcome, Outcome.output_after, Output.stdout_append, Session.stdout_answers_quiet,
      Session.stdout_ending, List.flatMap_map]
  · rw [houtcome, Outcome.output_after, Output.stderrText_append, Session.stderrText_answers_quiet,
      Session.stderrText_ending, if_pos rfl, List.append_nil, List.flatMap_map]
  · intro line _ hblank
    rw [tokensBeforeEnd_tokenize, tokens_eq_nil_of_isBlank hblank]

/-- A no-break space is blank but unknown to the scanner.  The prompt reports the one behind a word
and skips the other. -/
theorem prompt_agrees_with_file_no_break_space :
    let f := FileRun.ofText {} "\u00a0\nx\u00a0\n\"s\"".toList
    let p := PromptRun.ofOptions {}
    let numbered := Scan.numbered (f.source.lines.map (Scan.ofLine f.options))
    p.options = f.options ∧
    (∀ line ∈ f.source.lines, ∀ e ∈ (tokenize f.options line).errors,
      e.fault ≠ .unterminatedString) ∧
    (p.outcome f.source.bytes).output.stdout =
      "> > IDENTIFIER(x) line 1\nEOF() line 2\n".toList ++
        "> STRING(\"s\")(s) line 1\nEOF() line 1\n> ".toList ∧
    (p.outcome f.source.bytes).output.stderrText [] =
      "[line 1] Error: Unexpected character '\u00a0'.\n".toList ∧
    numbered.flatMap Scan.tokensBeforeEnd =
      [⟨.identifier, ['x'], 2⟩, ⟨.string ['s'], ['s'], 3⟩] ∧
    numbered.flatMap Scan.errors = [⟨.unexpectedCharacter '\u00a0', 2⟩] ∧
    f.scan.errors = [⟨.unexpectedCharacter '\u00a0', 1⟩, ⟨.unexpectedCharacter '\u00a0', 2⟩] := by
  intro f p numbered
  have hclosed : ∀ line ∈ f.source.lines, ∀ e ∈ (tokenize f.options line).errors,
      e.fault ≠ .unterminatedString := by decide +kernel
  have hscan : f.scan = ⟨[⟨.identifier, ['x'], 2⟩, ⟨.string ['s'], ['s'], 3⟩, Token.endOfFile 3],
      [⟨.unexpectedCharacter '\u00a0', 1⟩, ⟨.unexpectedCharacter '\u00a0', 2⟩]⟩ := by
    decide +kernel
  obtain ⟨hstdout, hstderr, -, -, htokens, herrors, -, -⟩ :=
    prompt_agrees_with_file f p rfl hclosed []
  refine ⟨rfl, hclosed, ?_, ?_, ?_, ?_, by rw [hscan]⟩
  · rw [hstdout]
    decide +kernel
  · rw [hstderr]
    decide +kernel
  · rw [htokens, hscan]
    rfl
  · rw [herrors, hscan]
    decide +kernel

end LoxTokens
