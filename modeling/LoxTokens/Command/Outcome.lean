import LoxTokens.Log

/-!
# Outcomes

What a run of the program leaves behind: the text on its standard output, what it says on its
standard error, and its exit status.  Standard error carries the log as well, in the order in which
things happen; the time stamps of the log are added when it is written out.
-/

set_option autoImplicit false

namespace LoxTokens

/-- A piece of standard error. -/
inductive Notice
  /-- A record of the log. -/
  | record (r : Record)
  /-- Some text that is not part of the log. -/
  | plain (t : Text)
  deriving DecidableEq, Repr

namespace Notice

/-- A line of text that is not part of the log. -/
def line (t : Text) : Notice := plain (t ++ ['\n'])

/-- The text of a notice, given the time at which it is written. -/
def text (time : Text) : Notice → Text
  | record r => r.text time ++ ['\n']
  | plain t => t

end Notice

/-- What is written to the two output streams. -/
structure Output where
  stdout : Text := []
  stderr : List Notice := []
  deriving DecidableEq, Repr

namespace Output

/-- One output after the other. -/
def append (a b : Output) : Output := ⟨a.stdout ++ b.stdout, a.stderr ++ b.stderr⟩

instance : Append Output := ⟨append⟩

/-- The text on standard error, given the time at which it is written. -/
def stderrText (time : Text) (o : Output) : Text := o.stderr.flatMap (Notice.text time)

@[simp] theorem stdout_append (a b : Output) : (a ++ b).stdout = a.stdout ++ b.stdout := rfl

@[simp] theorem stderr_append (a b : Output) : (a ++ b).stderr = a.stderr ++ b.stderr := rfl

theorem append_assoc (a b c : Output) : a ++ b ++ c = a ++ (b ++ c) := by
  change append (append a b) c = append a (append b c)
  simp only [append, List.append_assoc]

theorem stderrText_append (time : Text) (a b : Output) :
    (a ++ b).stderrText time = a.stderrText time ++ b.stderrText time := List.flatMap_append

end Output

/-- How a run ends. -/
inductive Status
  | success
  /-- The arguments make no sense. -/
  | usage
  /-- The source has lexical errors. -/
  | badData
  /-- The source cannot be read. -/
  | noInput
  /-- The standard input cannot be read. -/
  | readFailure
  deriving DecidableEq, Repr

/-- The number by which the caller learns the status. -/
def Status.code : Status → Nat
  | success => 0
  | usage => 2
  | badData => 65
  | noInput => 66
  | readFailure => 74

/-- The result of a whole run. -/
structure Outcome where
  status : Status
  output : Output
  deriving DecidableEq, Repr

/-- The outcome with more output in front. -/
def Outcome.after (o : Outcome) (before : Output) : Outcome :=
  { o with output := before ++ o.output }

namespace Outcome

@[simp] theorem status_after (o : Outcome) (before : Output) :
    (o.after before).status = o.status := rfl

@[simp] theorem output_after (o : Outcome) (before : Output) :
    (o.after before).output = before ++ o.output := rfl

@[simp] theorem after_empty (o : Outcome) : o.after {} = o := rfl

theorem after_after (o : Outcome) (a b : Output) : (o.after b).after a = o.after (a ++ b) := by
  rw [after, after, after, Output.append_assoc]

end Outcome

end LoxTokens
