import LoxTokens.Command.Program
import LoxTokens.Proofs.Display
import LoxTokens.Proofs.Layout

/-!
# What the output of a run tells

The tokens of a file are printed one after the other, each with its lexeme as it was read, so that a
string can imitate the ends of lines and whole other tokens.  The output can be read all the same:
the escaped form of a string comes before the string itself and tells how long that is, and no other
lexeme hides where it ends.

* `TokenKind.Admits k lexeme` — the lexemes that a scan gives to the tokens of a kind.
* `TokenKind.Admits.append_inj` — such a lexeme in front of a closing parenthesis tells its end.
* `Token.isPrefixCode_printed` and `LexError.isPrefixCode_printed` — a printed token or error can be
  told from whatever follows it.
* `FileRun` — a run of the program on a file, with its log as it is when nobody asks for more.
* `output_eq_iff` — equal outputs come from equal tokens, and equal error outputs from equal errors.
-/

set_option autoImplicit false

namespace LoxTokens

/-! ## The lexemes of a kind -/

/-- A token of the kind can have the lexeme. -/
inductive TokenKind.Admits : TokenKind → Text → Prop
  | punct (p : Punct) : Admits (punct p) p.text
  | identifier {w : Text} (hw : IsWord w) : Admits identifier w
  | keyword (k : Keyword) {w : Text} (hw : IsWord w) : Admits (keyword k) w
  | string (s : Text) : Admits (string s) s
  | number (w : TokenText) {n : Number} (h : w.kind {} = number n) : Admits (number n) w.text
  | endOfFile : Admits endOfFile []

theorem TokenText.admits (o : Options) (w : TokenText) : (w.kind o).Admits w.lexeme := by
  cases w with
  | punct p => exact .punct p
  | word w hw =>
    rcases Span.wordKind_cases o w with ⟨k, -, hk⟩ | ⟨-, hk⟩
    · rw [kind, hk]
      exact .keyword k (Lexical.mem_words.1 hw)
    · rw [kind, hk]
      exact .identifier (Lexical.mem_words.1 hw)
  | integer ds hds hbound => exact .number (.integer ds hds hbound) rfl
  | fraction whole part hwhole hpart => exact .number (.fraction whole part hwhole hpart) rfl
  | string body hbody => exact .string body

theorem admits_of_mem_tokens {o : Options} {source : Text} {t : Token}
    (h : t ∈ (tokenize o source).tokens) : t.kind.Admits t.lexeme := by
  obtain ⟨ts, line, htokens, hts⟩ := exists_tokens_eq o source
  rw [htokens] at h
  rcases List.mem_append.1 h with h | h
  · obtain ⟨w, line, rfl, -⟩ := hts t h
    exact w.admits o
  · obtain rfl := List.mem_singleton.1 h
    exact .endOfFile

theorem IsWord.parenthesis_notMem {w : Text} (h : IsWord w) : ')' ∉ w :=
  Text.notMem_of_class h.forall_isWordPart (by decide)

theorem TokenText.parenthesis_notMem_of_number {w : TokenText} {n : Number}
    (h : w.kind {} = .number n) : ')' ∉ w.text := by
  have hdigits : ∀ ds ∈ Lexical.digits, ')' ∉ ds := fun ds hds ↦
    Text.notMem_of_class (Lexical.mem_digits.1 hds).2 (by decide)
  cases w with
  | word w hw =>
    rw [kind] at h
    rcases Span.wordKind_cases {} w with ⟨k, -, hk⟩ | ⟨-, hk⟩ <;> cases hk.symm.trans h
  | integer ds hds hbound => exact hdigits ds hds
  | fraction whole part hwhole hpart =>
    simp [text, hdigits whole hwhole, hdigits part hpart]
  | _ => cases h

namespace TokenKind.Admits

variable {k l : TokenKind} {s t r u : Text}

theorem parenthesis_notMem_of_number {n : Number} (h : (TokenKind.number n).Admits s) :
    ')' ∉ s := by
  cases h with
  | number w hw => exact TokenText.parenthesis_notMem_of_number hw

/-- A lexeme with a closing parenthesis in it is the only one that its kind admits. -/
theorem notMem_or_unique (h : k.Admits s) : ')' ∉ s ∨ ∀ t, k.Admits t → t = s := by
  cases h with
  | identifier hw => exact .inl hw.parenthesis_notMem
  | keyword k hw => exact .inl hw.parenthesis_notMem
  | number w hw => exact .inl (TokenText.parenthesis_notMem_of_number hw)
  | _ =>
    refine .inr fun t ht ↦ ?_
    cases ht
    rfl

/-- The lexeme of a number tells its value. -/
theorem number_inj {m n : Number} (hm : (TokenKind.number m).Admits s)
    (hn : (TokenKind.number n).Admits s) : m = n := by
  generalize ht : s = t at hn
  cases hm with
  | number v hv =>
    cases hn with
    | number w hw =>
      obtain rfl := TokenText.text_injective ht
      exact TokenKind.number.inj (hv.symm.trans hw)

/-- **A lexeme in front of a closing parenthesis** tells where it ends if the kind is known.  Of a
number it is enough to know that it is one. -/
theorem append_inj (hs : k.Admits s) (ht : l.Admits t)
    (hkl : k = l ∨ ∃ m n, k = .number m ∧ l = .number n) (h : s ++ ')' :: r = t ++ ')' :: u) :
    k = l ∧ s = t ∧ r = u := by
  rcases hkl with rfl | ⟨m, n, rfl, rfl⟩
  · refine ⟨rfl, ?_⟩
    have hcancel : s = t → s = t ∧ r = u := by
      rintro rfl
      exact ⟨rfl, (List.cons.inj (List.append_cancel_left h)).2⟩
    rcases hs.notMem_or_unique with hs' | hs'
    · rcases ht.notMem_or_unique with ht' | ht'
      · exact Text.append_cons_inj hs' ht' h
      · exact hcancel (ht' s hs)
    · exact hcancel (hs' t ht).symm
  · obtain ⟨rfl, rfl⟩ := Text.append_cons_inj hs.parenthesis_notMem_of_number
      ht.parenthesis_notMem_of_number h
    exact ⟨congrArg _ (hs.number_inj ht), rfl, rfl⟩

end TokenKind.Admits

/-! ## One line after the other -/

/-- A token as it is printed. -/
def Token.printed (t : Token) : Text := t.text ++ ['\n']

/-- An error as it is printed. -/
def LexError.printed (e : LexError) : Text := e.text ++ ['\n']

/-- **A printed token can be read from the front of the output.** -/
theorem Token.isPrefixCode_printed :
    IsPrefixCode (fun t : Token ↦ t.kind.Admits t.lexeme) printed := by
  rintro ⟨k, s, m⟩ ⟨l, t, n⟩ r u hs ht h
  have hsplit : ∀ (k : TokenKind) (s r : Text) (m : Nat), printed ⟨k, s, m⟩ ++ r =
      k.text ++ '(' :: (s ++ ')' :: (" line ".toList ++ (Text.ofNat m ++ '\n' :: r))) := by
    intro k s r m
    simp [printed, text]
  rw [hsplit, hsplit] at h
  obtain ⟨hkind, hlexeme⟩ := TokenKind.text_append_inj h
  obtain ⟨rfl, rfl, hline⟩ := hs.append_inj ht hkind hlexeme
  obtain ⟨hnumber, rfl⟩ := Text.append_cons_inj (Text.notMem_ofNat (by decide) m)
    (Text.notMem_ofNat (by decide) n) (List.append_cancel_left hline)
  rw [Text.ofNat_injective hnumber]
  exact ⟨rfl, rfl⟩

theorem LexError.isPrefixCode_printed :
    IsPrefixCode (fun e : LexError ↦ '\n' ∉ e.text) printed := by
  intro e f r u he hf h
  rw [printed, printed, List.append_assoc, List.append_assoc] at h
  obtain ⟨htext, rfl⟩ := Text.append_cons_inj he hf h
  exact ⟨text_injective htext, rfl⟩

/-! ## What a scan gives to print -/

theorem Fault.newline_notMem_message {s : Span} {after : Text} {o : Options} {line : Nat}
    {e : LexError} (h : s.Fits after) (he : s.item? o line = some (.error e)) :
    '\n' ∉ e.fault.message := by
  cases h.yields he with
  | stray =>
    cases h with
    | stray hseparator =>
      have hc : '\n' ≠ _ := ne_of_apply_ne isSeparator (by rw [hseparator]; decide)
      unfold message
      simp [hc]
  | digits hds =>
    have hnewline : '\n' ∉ _ := Text.notMem_of_class hds.2 (by decide)
    unfold message
    simp [hnewline]
  | unclosed hbody => exact (by decide : '\n' ∉ unterminatedString.message)

/-- An error is displayed in one line. -/
theorem newline_notMem_text {o : Options} {source : Text} {e : LexError}
    (h : e ∈ (tokenize o source).errors) : '\n' ∉ e.text := by
  rw [Scanner.errors_tokenize] at h
  obtain ⟨i, hmem, hi⟩ := List.mem_filterMap.1 h
  obtain rfl : i = .error e := by
    cases i <;> cases hi
    rfl
  obtain ⟨s, after, line, hs, hitem⟩ := exists_fits_of_mem_itemsFrom (fitting_spans source) hmem
  have hmessage := Fault.newline_notMem_message hs hitem
  have hnumber := Text.notMem_ofNat (c := '\n') (by decide) e.line
  unfold LexError.text
  simp [hmessage, hnumber]

/-! ## Sessions that log little -/

namespace Session

/-- The session under which a scan runs if nothing was said about the log. -/
def quiet (o : Options) : Session := ⟨o, Threshold.ofSetting none false⟩

theorem log_quiet (o : Options) (r : Record) : (quiet o).log r = [] := by cases r <;> rfl

theorem opening_quiet (o : Options) : (quiet o).opening = {} := by
  rw [opening, log_quiet]

/-- Nothing but the tokens and the errors is printed. -/
theorem scan_quiet (o : Options) (source : Text) : (quiet o).scan source =
    ⟨(tokenize o source).tokens.flatMap Token.printed,
      (tokenize o source).errors.map fun e ↦ .line e.text⟩ := by
  have hlog : (Record.ofItems ((quiet o).items source)).flatMap (quiet o).log = [] :=
    List.flatMap_eq_nil_iff.2 fun r _ ↦ log_quiet o r
  rw [scan, hlog]
  rfl

end Session

/-! ## Runs -/

/-- A run of the program on a file that holds a text.  Its arguments do not ask for more log. -/
structure FileRun where
  options : Options
  source : Text
  path : Text
  arguments : List Text
  readFile : Text → Except Failure Bytes
  stdin : Bytes
  settings_eq : Program.settings arguments = .ok ⟨options, false, some path⟩
  readFile_eq : readFile path = .ok source.bytes

namespace FileRun

/-- What is written in the run, where nothing was set for the log. -/
def output (r : FileRun) : Output := (Program.run none r.readFile r.stdin r.arguments).output

/-- What there is to write. -/
def scan (r : FileRun) : Scan := tokenize r.options r.source

/-- Any text can be scanned so, under any options. -/
def ofText (o : Options) (source : Text) : FileRun where
  options := o
  source := source
  path := "-".toList
  arguments :=
    (if o.emptyStrings = .suppress then [Flag.suppressEmptyStrings.text] else []) ++
      (if o.keywordCase = .insensitive then [Flag.caseInsensitiveKeywords.text] else []) ++
      ["-".toList]
  readFile _ := .ok source.bytes
  stdin := []
  settings_eq := by
    obtain ⟨emptyStrings, keywordCase⟩ := o
    cases emptyStrings <;> cases keywordCase <;> rfl
  readFile_eq := rfl

theorem output_eq (r : FileRun) : r.output =
    ⟨r.scan.tokens.flatMap Token.printed, r.scan.errors.map fun e ↦ .line e.text⟩ := by
  have hsession : Program.session none ⟨r.options, false, some r.path⟩ = .quiet r.options := rfl
  rw [output, Program.run, r.settings_eq]
  simp only [r.readFile_eq, Session.ofFile, Except.bind, Bytes.text?_bytes, hsession,
    Outcome.after, Session.opening_quiet, Session.scan_quiet]
  rfl

theorem stdout_output (r : FileRun) :
    r.output.stdout = r.scan.tokens.flatMap Token.printed := by
  rw [output_eq]

theorem stderrText_output (r : FileRun) (time : Text) :
    r.output.stderrText time = r.scan.errors.flatMap LexError.printed := by
  rw [output_eq, Output.stderrText, List.flatMap_map]
  rfl

end FileRun

/-- **Equal outputs come from equal tokens, and equal error outputs from equal errors.**  This is so
for any two sources and any two treatments of keywords and empty strings, and whatever parts of
lines and tokens the strings in the sources imitate.  On the error output there is one line for each
error, and nothing else. -/
theorem output_eq_iff (r r' : FileRun) (time time' : Text) :
    (r.output.stdout = r'.output.stdout ↔ r.scan.tokens = r'.scan.tokens) ∧
    (r.output.stderrText time = r'.output.stderrText time' ↔ r.scan.errors = r'.scan.errors) ∧
    r.output.stderrText time = r.scan.errors.flatMap (fun e ↦ e.text ++ ['\n']) ∧
    ∀ e ∈ r.scan.errors, '\n' ∉ e.text := by
  have hnewline : ∀ r : FileRun, ∀ e ∈ r.scan.errors, '\n' ∉ e.text :=
    fun _ _ he ↦ newline_notMem_text he
  refine ⟨⟨fun h ↦ ?_, fun h ↦ ?_⟩, ⟨fun h ↦ ?_, fun h ↦ ?_⟩, r.stderrText_output time, hnewline r⟩
  · rw [r.stdout_output, r'.stdout_output] at h
    exact Token.isPrefixCode_printed.flatMap_inj
      (fun t ↦ List.append_ne_nil_of_right_ne_nil _ (by simp))
      (fun t ht ↦ admits_of_mem_tokens ht) (fun t ht ↦ admits_of_mem_tokens ht) h
  · rw [r.stdout_output, r'.stdout_output, h]
  · rw [r.stderrText_output, r'.stderrText_output] at h
    exact LexError.isPrefixCode_printed.flatMap_inj
      (fun e ↦ List.append_ne_nil_of_right_ne_nil _ (by simp)) (hnewline r) (hnewline r') h
  · rw [r.stderrText_output, r'.stderrText_output, h]

/-- The string imitates the end of its line and a whole token. -/
theorem output_eq_iff_imitation :
    let imitation := "x) line 1\nEOF(".toList
    let r := FileRun.ofText {} ('"' :: imitation ++ "\"@".toList)
    let r' := FileRun.ofText ⟨.suppress, .insensitive⟩ ('"' :: imitation ++ "\"\"\"@".toList)
    r.output.stdout = "STRING(\"x) line 1\\nEOF(\")(".toList ++ imitation ++
      ") line 1\nEOF() line 2\n".toList ∧
    r'.output.stdout = r.output.stdout ∧ r'.scan.tokens = r.scan.tokens := by
  intro imitation r r'
  have htokens : r.scan.tokens =
      [⟨.string imitation, imitation, 1⟩, Token.endOfFile 2] := by decide +kernel
  have htokens' : r'.scan.tokens =
      [⟨.string imitation, imitation, 1⟩, Token.endOfFile 2] := by decide +kernel
  have heq : r'.output.stdout = r.output.stdout := by
    rw [r.stdout_output, r'.stdout_output, htokens, htokens']
  refine ⟨?_, heq, (output_eq_iff r' r [] []).1.1 heq⟩
  rw [r.stdout_output, htokens]
  decide +kernel

end LoxTokens
