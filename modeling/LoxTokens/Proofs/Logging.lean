import LoxTokens.Command.Program
import Mathlib.Data.List.Basic

/-!
# Logging

The log of a run is written between the other things on the standard error, and the more verbose the
run is, the more records there are.  That is all there is to it: a run under one setting of the log
is the same run under the most verbose setting with the records that are too verbose left out.

* `LogSetting` — the settings of the log, and `LogSetting.level?` the level that each stands for.
* `Notice.within top n` — the notice is no record that is more verbose than the level `top`.
* `Output.upTo top o` and `Outcome.upTo top o` — without the records that are more verbose.
* `Session.traced s` — the session with all of its log.
* `Session.prompt_eq_upTo` — filtering commutes with a conversation of any length.
* `run_noninterference` — two runs that differ in their logs only.
-/

set_option autoImplicit false

namespace LoxTokens

/-! ## Settings -/

/-- A setting of the log. -/
inductive LogSetting
  /-- Nothing is said about the log. -/
  | unset
  /-- The empty word. -/
  | empty
  | level (l : Level)
  | off
  deriving DecidableEq, Repr

namespace LogSetting

/-- The word of a setting. -/
def word? : LogSetting → Option Text
  | unset => none
  | empty => some []
  | level l => some l.name
  | off => some "off".toList

/-- The most verbose level that is recorded under a setting, in a program that is told to be verbose
or not. -/
def level? (verbose : Bool) : LogSetting → Option Level
  | unset => some (if verbose then .debug else .warn)
  | empty => some .error
  | level l => some l
  | off => none

/-- The threshold of a setting is the level that it stands for. -/
theorem ofSetting_word? (w : LogSetting) (verbose : Bool) :
    Threshold.ofSetting w.word? verbose = ⟨w.level? verbose⟩ := by
  cases w with
  | unset => rfl
  | empty => rfl
  | level l => cases l <;> rfl
  | off => rfl

end LogSetting

/-! ## Leaving records out -/

/-- Whether a notice stays if the log goes up to the given level: a record does unless it is more
verbose, and what is not part of the log always does. -/
def Notice.within (top : Option Level) : Notice → Bool
  | record r => top.any fun l ↦ r.level.rank ≤ l.rank
  | plain _ => true

/-- The output without the records that are more verbose than the given level. -/
def Output.upTo (top : Option Level) (o : Output) : Output :=
  { o with stderr := o.stderr.filter (Notice.within top) }

/-- The outcome without the records that are more verbose than the given level. -/
def Outcome.upTo (top : Option Level) (o : Outcome) : Outcome :=
  { o with output := o.output.upTo top }

section

variable (top : Option Level)

theorem Output.upTo_append (a b : Output) : (a ++ b).upTo top = a.upTo top ++ b.upTo top := by
  rw [upTo, stderr_append, List.filter_append]
  rfl

theorem Outcome.upTo_after (o : Outcome) (before : Output) :
    (o.after before).upTo top = (o.upTo top).after (before.upTo top) := by
  rw [upTo, output_after, Output.upTo_append]
  rfl

/-- What is not part of the log stays. -/
theorem filter_map_line (ts : List Text) :
    (ts.map Notice.line).filter (Notice.within top) = ts.map Notice.line := by
  refine List.filter_eq_self.2 fun n hn ↦ ?_
  obtain ⟨t, -, rfl⟩ := List.mem_map.1 hn
  rfl

end

/-! ## Sessions -/

namespace Session

/-- The same session with all of its log. -/
def traced (s : Session) : Session := { s with threshold := ⟨some .trace⟩ }

variable (s : Session)

theorem log_traced (r : Record) : s.traced.log r = [.record r] := by
  cases r <;> rfl

/-- A session logs the records that are within its threshold. -/
theorem log_eq_filter (r : Record) :
    s.log r = (s.traced.log r).filter (Notice.within s.threshold.level?) := by
  have hpasses : s.threshold.passes r.level =
      Notice.within s.threshold.level? (.record r) := by
    rw [Threshold.passes, Notice.within]
    cases s.threshold.level? with
    | none => rfl
    | some top => rfl
  rw [log_traced, log, hpasses, List.filter_cons, List.filter_nil]

theorem opening_eq_upTo : s.opening = s.traced.opening.upTo s.threshold.level? := by
  rw [opening, log_eq_filter]
  rfl

theorem scan_eq_upTo (source : Text) :
    s.scan source = (s.traced.scan source).upTo s.threshold.level? := by
  have hitems : s.traced.items source = s.items source := rfl
  have hlog : (Record.ofItems (s.items source)).flatMap s.log =
      ((Record.ofItems (s.items source)).flatMap s.traced.log).filter
        (Notice.within s.threshold.level?) := by
    rw [List.filter_flatMap]
    exact List.flatMap_congr fun r _ ↦ s.log_eq_filter r
  have herrors := filter_map_line s.threshold.level?
    ((Scan.ofItems (s.items source)).errors.map LexError.text)
  rw [List.map_map] at herrors
  rw [scan, scan, hitems, hlog, Output.upTo, List.filter_append]
  exact congrArg _ (congrArg _ herrors.symm)

theorem ofFile_eq_upTo (path : Text) (contents : Except Failure Bytes) :
    s.ofFile path contents = (s.traced.ofFile path contents).upTo s.threshold.level? := by
  rw [ofFile, ofFile]
  dsimp only
  generalize contents.bind _ = source
  cases source with
  | error f => rfl
  | ok t =>
    dsimp only
    rw [scan_eq_upTo]
    rfl

theorem reply_eq_upTo (line : Bytes) :
    s.reply line = (s.traced.reply line).map (Output.upTo s.threshold.level?) := by
  rw [reply, reply]
  cases line.text? with
  | none => rfl
  | some t =>
    by_cases hblank : isBlank t = true
    · simp only [hblank]
      rfl
    · simp only [hblank, s.scan_eq_upTo t]
      rfl

/-- **Leaving records out commutes with a conversation** of any length. -/
theorem prompt_eq_upTo (lines : List Bytes) :
    s.prompt lines = (s.traced.prompt lines).upTo s.threshold.level? := by
  induction lines with
  | nil => rfl
  | cons line lines ih =>
    rw [prompt, prompt, reply_eq_upTo]
    cases s.traced.reply line with
    | error f => rfl
    | ok answer =>
      rw [Outcome.upTo_after, Output.upTo_append, ← ih]
      rfl

end Session

/-! ## Runs -/

namespace Program

variable (readFile : Text → Except Failure Bytes) (stdin : Bytes)
  {arguments arguments' : List Text} {s s' : Settings}

/-- The outcome of a scan, for any setting of the log. -/
theorem run_eq_upTo (h : settings arguments = .ok s) (w : LogSetting) :
    run w.word? readFile stdin arguments =
      (run (LogSetting.level .trace).word? readFile stdin arguments).upTo (w.level? s.verbose) := by
  have hsession : session w.word? s = ⟨s.options, ⟨w.level? s.verbose⟩⟩ := by
    rw [session, LogSetting.ofSetting_word?]
  have htraced : session (LogSetting.level .trace).word? s = (session w.word? s).traced := by
    rw [session, LogSetting.ofSetting_word?]
    rfl
  have htop : (session w.word? s).threshold.level? = w.level? s.verbose := by rw [hsession]
  rw [run, run, h]
  dsimp only
  rw [htraced, ← htop, Outcome.upTo_after, ← Session.opening_eq_upTo]
  cases s.path? with
  | none => rw [← Session.prompt_eq_upTo]
  | some path => rw [← Session.ofFile_eq_upTo]

/-- With all of the log it does not matter whether the program is told to be verbose. -/
theorem run_trace_congr (h : settings arguments = .ok s) (h' : settings arguments' = .ok s')
    (hoptions : s'.options = s.options) (hpath : s'.path? = s.path?) :
    run (LogSetting.level .trace).word? readFile stdin arguments' =
      run (LogSetting.level .trace).word? readFile stdin arguments := by
  have hsession : session (LogSetting.level .trace).word? s' =
      session (LogSetting.level .trace).word? s := by
    rw [session, session, LogSetting.ofSetting_word?, LogSetting.ofSetting_word?, hoptions]
    rfl
  rw [run, run, h, h']
  dsimp only
  rw [hsession, hpath]

end Program

/-- **Logging does not interfere.**  Two runs on the same files and the same input whose arguments
ask for the same scan, whatever they say about the log and however it is set, write the same to the
standard output and exit with the same code.  Each of them writes to the standard error what is
written there with all of the log, in the same order, without the records that are too verbose. -/
theorem run_noninterference (readFile : Text → Except Failure Bytes) (stdin : Bytes)
    {arguments arguments' : List Text} {s s' : Settings}
    (h : Program.settings arguments = .ok s) (h' : Program.settings arguments' = .ok s')
    (hoptions : s'.options = s.options) (hpath : s'.path? = s.path?) (w w' : LogSetting) :
    let r := Program.run w.word? readFile stdin arguments
    let r' := Program.run w'.word? readFile stdin arguments'
    let all := Program.run (LogSetting.level .trace).word? readFile stdin arguments
    r.output.stdout = r'.output.stdout ∧
    r.status.code = r'.status.code ∧
    r.output.stderr = all.output.stderr.filter (Notice.within (w.level? s.verbose)) ∧
    r'.output.stderr = all.output.stderr.filter (Notice.within (w'.level? s'.verbose)) := by
  intro r r' all
  have hr : r = all.upTo (w.level? s.verbose) := Program.run_eq_upTo readFile stdin h w
  have hr' : r' = all.upTo (w'.level? s'.verbose) := by
    have hall := Program.run_trace_congr readFile stdin h h' hoptions hpath
    exact (Program.run_eq_upTo readFile stdin h' w').trans (congrArg _ hall)
  rw [hr, hr']
  exact ⟨rfl, rfl, rfl, rfl⟩

/-- An error, a token and a byte that is no text, in a verbose run and in one that logs nothing. -/
theorem run_noninterference_verbose :
    let readFile : Text → Except Failure Bytes := fun _ ↦ .error Failure.notFound
    let stdin : Bytes := [64, 59, 10, 255]
    let verbose := Program.run LogSetting.unset.word? readFile stdin ["-v".toList]
    let silent := Program.run LogSetting.off.word? readFile stdin []
    verbose.output.stdout = "> SEMICOLON(;) line 1\nEOF() line 2\n> ".toList ∧
    silent.output.stdout = verbose.output.stdout ∧
    silent.status.code = verbose.status.code ∧
    verbose.output.stderr =
      [.record (.starting {}), .record (.failed ⟨.unexpectedCharacter '@', 1⟩),
        .record (.finished 2 1), .line "[line 1] Error: Unexpected character '@'.".toList,
        .line "Error: could not read from stdin: stream did not contain valid UTF-8".toList] ∧
    silent.output.stderr = verbose.output.stderr.drop 3 := by
  intro readFile stdin verbose silent
  have hverbose : Program.settings ["-v".toList] = .ok ⟨{}, true, none⟩ := rfl
  have hsilent : Program.settings [] = .ok ⟨{}, false, none⟩ := rfl
  obtain ⟨hstdout, hcode, hstderr, hstderr'⟩ :=
    run_noninterference readFile stdin hverbose hsilent rfl rfl .unset .off
  refine ⟨by decide +kernel, hstdout.symm, hcode.symm, ?_, ?_⟩
  · rw [hstderr]
    decide +kernel
  · rw [hstderr', hstderr]
    decide +kernel

end LoxTokens
