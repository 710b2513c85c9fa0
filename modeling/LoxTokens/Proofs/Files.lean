import LoxTokens.Proofs.Prompt
import LoxTokens.Proofs.Utf8

/-!
# Files, all or nothing

At the prompt, what stands in front of a line that is no text has been answered when the line is
read.  A file is decoded as a whole before anything of it is printed, so that wherever it is
ill-formed, nothing comes out of it.  A lexical error, on the other hand, holds nothing back,
neither in front of it nor behind it.

* `Program.run_eq_ofFile` — a run on a file is a session with its contents.
* `Session.ofFile_of_forall_ne` and `Session.ofFile_bytes` — such a session, if the contents are no
  text and if they are.
* `Session.stdout_scan_of_items` — an error leaves a gap in what is printed, and no more than that.
* `file_all_or_nothing` — the exit code and the standard output of a run on a file.
-/

set_option autoImplicit false

namespace LoxTokens

/-! ## Sessions -/

namespace Session

variable (s : Session) (path : Text)

/-- Nothing comes out of a file that is no text but the reason. -/
theorem ofFile_of_forall_ne {b : Bytes} (h : ∀ t : Text, t.bytes ≠ b) :
    s.ofFile path (.ok b) = ⟨.noInput, ⟨[], [.line ("Error: could not read ".toList ++ path ++
      ": ".toList ++ Failure.invalidUtf8.message)]⟩⟩ := by
  rw [ofFile, Except.bind, Bytes.text?_eq_none_iff.2 h]

/-- A file that is a text is scanned. -/
theorem ofFile_bytes (t : Text) : s.ofFile path (.ok t.bytes) =
    ⟨if s.hasErrors t then .badData else .success, s.scan t⟩ := by
  rw [ofFile, Except.bind, Bytes.text?_bytes]

/-- The exit code of scanning a file that is a text. -/
theorem code_ofFile_bytes (t : Text) : (s.ofFile path (.ok t.bytes)).status.code =
    if (tokenize s.options t).errors = [] then 0 else 65 := by
  have hany : s.hasErrors t = !(tokenize s.options t).errors.isEmpty := rfl
  rw [ofFile_bytes, hany]
  cases (tokenize s.options t).errors <;> rfl

theorem stdout_scan (t : Text) :
    (s.scan t).stdout = (tokenize s.options t).tokens.flatMap Token.printed := rfl

/-- **An error holds nothing back:** the tokens in front of it are printed, and then those behind
it. -/
theorem stdout_scan_of_items {t : Text} {before after : List Item} {e : LexError}
    (h : s.items t = before ++ .error e :: after) : (s.scan t).stdout =
      (Scan.ofItems before).tokens.flatMap Token.printed ++
        (Scan.ofItems after).tokens.flatMap Token.printed := by
  have htokens : (tokenize s.options t).tokens = (Scan.ofItems (s.items t)).tokens := rfl
  rw [stdout_scan, htokens, h, Scan.ofItems_append, Scan.ofItems_error, List.flatMap_append]

theorem stdout_opening : s.opening.stdout = [] := rfl

end Session

/-! ## Runs -/

/-- A run on a file is a session with its contents. -/
theorem Program.run_eq_ofFile (logSetting : Option Text) (readFile : Text → Except Failure Bytes)
    (stdin : Bytes) {arguments : List Text} {settings : Settings} {path : Text} {b : Bytes}
    (h : Program.settings arguments = .ok settings) (hpath : settings.path? = some path)
    (hb : readFile path = .ok b) :
    let s := session logSetting settings
    run logSetting readFile stdin arguments = (s.ofFile path (.ok b)).after s.opening := by
  rw [run, h]
  dsimp only
  rw [hpath]
  dsimp only
  rw [hb]

/-- **Files, all or nothing.**  However the log is set, a run on a file whose bytes are no text,
which is to say that they are ill-formed behind some front that is one, exits with 66 and writes
nothing to the standard output.  If they are a text, there is no other text with these bytes.  Then
the run writes all of its tokens to the standard output, up to the end of the file, those behind an
error as well as those in front of it, and it exits with 65 if there is an error and with 0 if there
is none. -/
theorem file_all_or_nothing (logSetting : Option Text) (readFile : Text → Except Failure Bytes)
    (stdin : Bytes) {arguments : List Text} {settings : Settings} {path : Text} {b : Bytes}
    (h : Program.settings arguments = .ok settings) (hpath : settings.path? = some path)
    (hb : readFile path = .ok b) :
    let outcome := Program.run logSetting readFile stdin arguments
    ((∀ t : Text, t.bytes ≠ b) ↔
      ∃ (front : Text) (bad : Bytes), b = front.bytes ++ bad ∧ Bytes.IllFormed bad) ∧
    ((∀ t : Text, t.bytes ≠ b) → outcome.status.code = 66 ∧ outcome.output.stdout = []) ∧
    ∀ t : Text, t.bytes = b →
      (∀ t' : Text, t'.bytes = b → t' = t) ∧
      (∃ (ts : List Token) (line : Nat),
        (tokenize settings.options t).tokens = ts ++ [Token.endOfFile line]) ∧
      outcome.output.stdout =
        (tokenize settings.options t).tokens.flatMap (fun u ↦ u.text ++ ['\n']) ∧
      (∀ (before after : List Item) (e : LexError),
        (Scanner.ofText settings.options t).items = before ++ .error e :: after →
        outcome.output.stdout =
          (Scan.ofItems before).tokens.flatMap (fun u ↦ u.text ++ ['\n']) ++
            (Scan.ofItems after).tokens.flatMap (fun u ↦ u.text ++ ['\n'])) ∧
      outcome.status.code = if (tokenize settings.options t).errors = [] then 0 else 65 := by
  intro outcome
  have houtcome : outcome = _ := Program.run_eq_ofFile logSetting readFile stdin h hpath hb
  have hstdout : outcome.output.stdout =
      ((Program.session logSetting settings).ofFile path (.ok b)).output.stdout := by
    rw [houtcome, Outcome.output_after, Output.stdout_append, Session.stdout_opening,
      List.nil_append]
  have hcode : outcome.status.code =
      ((Program.session logSetting settings).ofFile path (.ok b)).status.code := by
    rw [houtcome, Outcome.status_after]
  refine ⟨Bytes.forall_bytes_ne_iff, fun hnone ↦ ?_, ?_⟩
  · rw [hstdout, hcode, Session.ofFile_of_forall_ne _ _ hnone]
    exact ⟨rfl, rfl⟩
  · rintro t rfl
    rw [Session.ofFile_bytes] at hstdout
    rw [Session.code_ofFile_bytes] at hcode
    obtain ⟨ts, line, htokens, -⟩ := exists_tokens_eq settings.options t
    refine ⟨fun t' ht' ↦ ?_, ⟨ts, line, htokens⟩, hstdout, fun before after e hitems ↦ ?_, hcode⟩
    · exact Option.some.inj ((Bytes.text?_eq_some_iff.2 ht').symm.trans (Bytes.text?_bytes t))
    · exact hstdout.trans (Session.stdout_scan_of_items _ hitems)

/-- A surrogate behind a token, and an error between two tokens. -/
theorem file_all_or_nothing_surrogate :
    let file (b : Bytes) := Program.run none (fun _ ↦ .ok b) [] ["-".toList]
    (file [59, 0xed, 0xa0, 0x80]).status.code = 66 ∧
    (file [59, 0xed, 0xa0, 0x80]).output.stdout = [] ∧
    (file [59, 64, 59]).status.code = 65 ∧
    (file [59, 64, 59]).output.stdout =
      "SEMICOLON(;) line 1\nSEMICOLON(;) line 1\nEOF() line 1\n".toList := by
  intro file
  have hsettings : Program.settings ["-".toList] = .ok ⟨{}, false, some "-".toList⟩ := rfl
  have hill := file_all_or_nothing none (fun _ ↦ .ok [59, 0xed, 0xa0, 0x80]) [] hsettings rfl rfl
  have htext := file_all_or_nothing none (fun _ ↦ .ok [59, 64, 59]) [] hsettings rfl rfl
  have hbad : Bytes.IllFormed [0xed, 0xa0, 0x80] := .surrogate (by decide) (by decide)
  obtain ⟨hcode, hstdout⟩ := hill.2.1 (hill.1.2 ⟨[';'], _, by decide +kernel, hbad⟩)
  obtain ⟨-, -, hstdout', -, hcode'⟩ := htext.2.2 [';', '@', ';'] (by decide +kernel)
  refine ⟨hcode, hstdout, ?_, ?_⟩
  · rw [hcode']
    decide +kernel
  · rw [hstdout']
    decide +kernel

end LoxTokens
