import LoxTokens.Proofs.Chunks
import LoxTokens.Proofs.Output

/-!
# Conversations at the prompt

At the prompt, every line is answered on its own.  So the conversation over two inputs, the first of
which ends a line, is the one conversation and then the other, and what is said about a line depends
on that line alone.  Only a line that is no text brings the conversation to an end.

* `Session.answers lines` — what is printed for lines, each with the invitation in front of it.
* `Session.prompt_append` — a conversation goes on behind lines that are texts as if it started
  there.
* `Bytes.exists_decoded` — the chunks of an input up to the first that is no text.
* `PromptRun` — a run of the program at the prompt, with its log as it is when nobody asks for more.
* `PromptRun.outcome_of_chunks` — the outcome of such a run, line by line.
* `prompt_homomorphism` — the run on two inputs, and how any run ends.
-/

set_option autoImplicit false

namespace LoxTokens

/-! ## Lines that are answered -/

namespace Session

variable (s : Session)

/-- What is printed for one line.  A blank line is not scanned. -/
def answer (line : Text) : Output := if isBlank line then {} else s.scan line

/-- What is printed for lines, with the invitation in front of each. -/
def answers : List Text → Output
  | [] => {}
  | line :: lines => invitation ++ s.answer line ++ answers lines

theorem reply_bytes (line : Text) : s.reply line.bytes = .ok (s.answer line) := by
  rw [reply, Bytes.text?_bytes, answer]

/-- **Lines that are texts are answered one by one,** and then the conversation goes on. -/
theorem prompt_append (lines : List Text) (rest : List Bytes) :
    s.prompt (lines.map Text.bytes ++ rest) = (s.prompt rest).after (s.answers lines) := by
  induction lines with
  | nil => rfl
  | cons line lines ih =>
    rw [List.map_cons, List.cons_append, prompt, reply_bytes, answers, ← Outcome.after_after, ← ih]

/-- How a conversation ends that has only the given chunks left: in good order if there are none,
and otherwise with the failure to read the first of them. -/
def ending (rest : List Bytes) : Outcome :=
  if rest = [] then ⟨.success, invitation⟩
  else (unreadable Failure.invalidUtf8).after invitation

/-- A line that is no text ends the conversation. -/
theorem prompt_eq_ending {rest : List Bytes} (h : ∀ c ∈ rest.head?, c.text? = none) :
    s.prompt rest = ending rest := by
  cases rest with
  | nil => rfl
  | cons c rest =>
    have hc : c.text? = none := h c rfl
    rw [prompt, reply, hc, ending, if_neg (List.cons_ne_nil c rest)]

theorem stdout_ending (rest : List Bytes) : (ending rest).output.stdout = "> ".toList := by
  rw [ending]
  split <;> rfl

theorem stderrText_ending (time : Text) (rest : List Bytes) :
    (ending rest).output.stderrText time = if rest = [] then [] else
      "Error: could not read from stdin: stream did not contain valid UTF-8\n".toList := by
  have hmessage : "Error: could not read from stdin: ".toList ++ Failure.invalidUtf8.message ++
      ['\n'] = "Error: could not read from stdin: stream did not contain valid UTF-8\n".toList := by
    decide +kernel
  rw [ending]
  split
  · rfl
  · exact (List.append_nil _).trans hmessage

theorem code_ending (rest : List Bytes) :
    (ending rest).status.code = if rest = [] then 0 else 74 := by
  rw [ending]
  split <;> rfl

end Session

namespace Bytes

/-- No text has the bytes as its encoding. -/
theorem text?_eq_none_iff {b : Bytes} : b.text? = none ↔ ∀ t : Text, t.bytes ≠ b := by
  rw [Option.eq_none_iff_forall_ne_some]
  exact forall_congr' fun t ↦ not_congr text?_eq_some_iff

/-- All chunks up to the first that is no text are texts. -/
theorem exists_decoded (cs : List Bytes) : ∃ (lines : List Text) (rest : List Bytes),
    cs = lines.map Text.bytes ++ rest ∧ ∀ c ∈ rest.head?, c.text? = none := by
  induction cs with
  | nil => exact ⟨[], [], rfl, by simp⟩
  | cons c cs ih =>
    cases hc : c.text? with
    | none => exact ⟨[], c :: cs, rfl, by simpa using hc⟩
    | some t =>
      obtain ⟨lines, rest, rfl, hrest⟩ := ih
      refine ⟨t :: lines, rest, ?_, hrest⟩
      rw [List.map_cons, bytes_of_text? hc, List.cons_append]

/-- Nothing is left of the chunks if and only if all of them are texts. -/
theorem rest_eq_nil_iff {lines : List Text} {rest : List Bytes}
    (hrest : ∀ c ∈ rest.head?, c.text? = none) :
    rest = [] ↔ ∀ c ∈ lines.map Text.bytes ++ rest, ∃ t : Text, t.bytes = c := by
  constructor
  · rintro rfl c hc
    rw [List.append_nil] at hc
    obtain ⟨t, -, ht⟩ := List.mem_map.1 hc
    exact ⟨t, ht⟩
  · intro hall
    by_contra hne
    obtain ⟨c, rest, rfl⟩ := List.exists_cons_of_ne_nil hne
    obtain ⟨t, ht⟩ := hall c (by simp)
    exact text?_eq_none_iff.1 (hrest c rfl) t ht

end Bytes

/-! ## What is printed for a line -/

/-- What is found in a line at the prompt: nothing at all if the line is blank. -/
def Scan.ofLine (o : Options) (line : Text) : Scan :=
  if isBlank line then ⟨[], []⟩ else tokenize o line

namespace Session

variable (o : Options)

theorem answer_quiet (line : Text) : (quiet o).answer line =
    ⟨(Scan.ofLine o line).tokens.flatMap Token.printed,
      (Scan.ofLine o line).errors.map fun e ↦ .line e.text⟩ := by
  rw [answer, Scan.ofLine]
  by_cases hblank : isBlank line = true
  · simp [hblank]
  · simp only [hblank, scan_quiet]
    rfl

theorem stdout_answers_quiet (lines : List Text) : ((quiet o).answers lines).stdout =
    lines.flatMap fun l ↦ "> ".toList ++ (Scan.ofLine o l).tokens.flatMap Token.printed := by
  induction lines with
  | nil => rfl
  | cons line lines ih =>
    rw [answers, Output.stdout_append, Output.stdout_append, ih, answer_quiet, List.flatMap_cons]
    rfl

theorem stderrText_answers_quiet (time : Text) (lines : List Text) :
    ((quiet o).answers lines).stderrText time =
      lines.flatMap fun l ↦ (Scan.ofLine o l).errors.flatMap LexError.printed := by
  induction lines with
  | nil => rfl
  | cons line lines ih =>
    have hline : ((quiet o).answer line).stderrText time =
        (Scan.ofLine o line).errors.flatMap LexError.printed := by
      rw [answer_quiet, Output.stderrText, List.flatMap_map]
      rfl
    rw [answers, Output.stderrText_append, Output.stderrText_append, ih, hline, List.flatMap_cons]
    rfl

end Session

/-! ## Runs -/

/-- A run of the program at the prompt.  Its arguments do not ask for more log. -/
structure PromptRun where
  options : Options
  arguments : List Text
  readFile : Text → Except Failure Bytes
  settings_eq : Program.settings arguments = .ok ⟨options, false, none⟩

namespace PromptRun

/-- The outcome of the run on an input, where nothing was set for the log. -/
def outcome (r : PromptRun) (stdin : Bytes) : Outcome :=
  Program.run none r.readFile stdin r.arguments

/-- There is a prompt for any options. -/
def ofOptions (o : Options) : PromptRun where
  options := o
  arguments :=
    (if o.emptyStrings = .suppress then [Flag.suppressEmptyStrings.text] else []) ++
      (if o.keywordCase = .insensitive then [Flag.caseInsensitiveKeywords.text] else [])
  readFile _ := .error Failure.notFound
  settings_eq := by
    obtain ⟨emptyStrings, keywordCase⟩ := o
    cases emptyStrings <;> cases keywordCase <;> rfl

variable (r : PromptRun)

theorem outcome_eq (stdin : Bytes) :
    r.outcome stdin = (Session.quiet r.options).prompt stdin.chunks := by
  have hsession : Program.session none ⟨r.options, false, none⟩ = .quiet r.options := rfl
  rw [outcome, Program.run, r.settings_eq]
  simp only [hsession, Session.opening_quiet, Outcome.after_empty]

/-- **The outcome, line by line.**  All lines in front of the first chunk that is no text are
answered, and then the run ends. -/
theorem outcome_of_chunks {stdin : Bytes} {lines : List Text} {rest : List Bytes}
    (h : stdin.chunks = lines.map Text.bytes ++ rest) (hrest : ∀ c ∈ rest.head?, c.text? = none) :
    r.outcome stdin =
      (Session.ending rest).after ((Session.quiet r.options).answers lines) := by
  rw [outcome_eq, h, Session.prompt_append, Session.prompt_eq_ending _ hrest]

/-- The outcome if all of the input is a text. -/
theorem outcome_bytes (t : Text) :
    r.outcome t.bytes =
      (Session.ending []).after ((Session.quiet r.options).answers t.lines) := by
  refine r.outcome_of_chunks ?_ (by simp)
  rw [Text.chunks_bytes, List.append_nil]

/-- Behind a text that ends a line, the run goes on as if it started there. -/
theorem outcome_append {t : Text} (h : t.bytes.EndsLine) (b : Bytes) :
    r.outcome (t.bytes ++ b) =
      (r.outcome b).after ((Session.quiet r.options).answers t.lines) := by
  rw [outcome_eq, Bytes.chunks_append h, Text.chunks_bytes, Session.prompt_append, ← outcome_eq]

end PromptRun

/-- **Conversations at the prompt.**  The run on two inputs, the first of which is a text that ends
a line, prints what the first prints without its last invitation and then what the second prints,
reports the errors of both, and exits as the second does.  Any run answers the lines in front of the
first chunk that is no text, each line by what is found in that line alone, and invites once more.
It exits with 0 if that was all, whatever errors it found, and otherwise with 74 and the read
error. -/
theorem prompt_homomorphism (r : PromptRun) (time : Text) :
    (∀ a b : Bytes, a.EndsLine → (∃ t : Text, t.bytes = a) → ∃ front,
      (r.outcome a).output.stdout = front ++ "> ".toList ∧
      (r.outcome (a ++ b)).output.stdout = front ++ (r.outcome b).output.stdout ∧
      (r.outcome (a ++ b)).output.stderrText time =
        (r.outcome a).output.stderrText time ++ (r.outcome b).output.stderrText time ∧
      (r.outcome (a ++ b)).status.code = (r.outcome b).status.code) ∧
    ∀ b : Bytes,
      ((r.outcome b).status.code = 74 ↔ ∃ c ∈ b.chunks, ∀ t : Text, t.bytes ≠ c) ∧
      ((r.outcome b).status.code = 0 ↔ ∀ c ∈ b.chunks, ∃ t : Text, t.bytes = c) ∧
      ∃ (lines : List Text) (rest : List Bytes), b.chunks = lines.map Text.bytes ++ rest ∧
        (∀ c ∈ rest.head?, ∀ t : Text, t.bytes ≠ c) ∧
        (r.outcome b).output.stdout =
          lines.flatMap (fun l ↦
            "> ".toList ++ (Scan.ofLine r.options l).tokens.flatMap Token.printed) ++
          "> ".toList ∧
        (r.outcome b).output.stderrText time =
          lines.flatMap (fun l ↦ (Scan.ofLine r.options l).errors.flatMap LexError.printed) ++
          if rest = [] then [] else
            "Error: could not read from stdin: stream did not contain valid UTF-8\n".toList := by
  refine ⟨?_, fun b ↦ ?_⟩
  · rintro _ b hend ⟨t, rfl⟩
    have hboth := r.outcome_append hend b
    refine ⟨((Session.quiet r.options).answers t.lines).stdout, ?_, ?_, ?_, ?_⟩
    · rw [r.outcome_bytes, Outcome.output_after, Output.stdout_append, Session.stdout_ending]
    · rw [hboth, Outcome.output_after, Output.stdout_append]
    · rw [hboth, r.outcome_bytes, Outcome.output_after, Outcome.output_after,
        Output.stderrText_append, Output.stderrText_append, Session.stderrText_ending, if_pos rfl,
        List.append_nil]
    · rw [hboth, Outcome.status_after]
  · obtain ⟨lines, rest, hchunks, hrest⟩ := Bytes.exists_decoded b.chunks
    have houtcome := r.outcome_of_chunks hchunks hrest
    have hcode : (r.outcome b).status.code = if rest = [] then 0 else 74 := by
      rw [houtcome, Outcome.status_after, Session.code_ending]
    have htexts : rest = [] ↔ ∀ c ∈ b.chunks, ∃ t : Text, t.bytes = c := by
      rw [hchunks]
      exact Bytes.rest_eq_nil_iff hrest
    refine ⟨?_, ?_, lines, rest, hchunks, fun c hc ↦ Bytes.text?_eq_none_iff.1 (hrest c hc), ?_, ?_⟩
    · have hnone : (∃ c ∈ b.chunks, ∀ t : Text, t.bytes ≠ c) ↔ ¬ rest = [] := by
        simp only [htexts, not_forall, not_exists, exists_prop, ne_eq]
      rw [hcode, hnone]
      by_cases hnil : rest = [] <;> simp [hnil]
    · rw [hcode, ← htexts]
      by_cases hnil : rest = [] <;> simp [hnil]
    · rw [houtcome, Outcome.output_after, Output.stdout_append, Session.stdout_answers_quiet,
        Session.stdout_ending]
    · rw [houtcome, Outcome.output_after, Output.stderrText_append,
        Session.stderrText_answers_quiet, Session.stderrText_ending]

/-- An error and an open string in lines of their own, and a byte that is no text further down. -/
theorem prompt_homomorphism_interrupted :
    let r := PromptRun.ofOptions ⟨.suppress, .insensitive⟩
    let a : Bytes := [64, 10, 34, 10]
    let b : Bytes := [59, 10, 255, 10, 42]
    a.EndsLine ∧ (∃ t : Text, t.bytes = a) ∧
      (r.outcome (a ++ b)).output.stdout =
        "> EOF() line 2\n> EOF() line 2\n> SEMICOLON(;) line 1\nEOF() line 2\n> ".toList ∧
      (r.outcome (a ++ b)).output.stderrText [] =
        "[line 1] Error: Unexpected character '@'.\n".toList ++
          "[line 2] Error: Unterminated string.\n".toList ++
          "Error: could not read from stdin: stream did not contain valid UTF-8\n".toList ∧
      (r.outcome (a ++ b)).status.code = 74 := by
  intro r a b
  have hend : a.EndsLine := .inr rfl
  have htext : ∃ t : Text, t.bytes = a := ⟨['@', '\n', '"', '\n'], by decide +kernel⟩
  obtain ⟨front, hfront, hstdout, hstderr, hcode⟩ := (prompt_homomorphism r []).1 a b hend htext
  have ha : (r.outcome a).output.stdout =
      "> EOF() line 2\n> EOF() line 2\n".toList ++ "> ".toList := by decide +kernel
  obtain rfl := List.append_cancel_right (hfront.symm.trans ha)
  refine ⟨hend, htext, ?_, ?_, ?_⟩
  · rw [hstdout]
    decide +kernel
  · rw [hstderr]
    decide +kernel
  · rw [hcode]
    decide +kernel

end LoxTokens
