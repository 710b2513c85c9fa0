import LoxTokens.Command.Outcome
import LoxTokens.Scanner.Basic
import LoxTokens.Text.Blank
import LoxTokens.Text.Utf8

/-!
# Sessions

A session scans sources under fixed options and prints what it finds: tokens on the standard output
and errors on the standard error, one to a line.  All of the log of a source comes before its
errors.

* `Session.scan` is what is printed for one source.
* `Session.ofFile` scans a file, all or nothing: if its bytes are not a text, nothing is printed
  but the reason.
* `Session.reply` answers one line at the prompt, and `Session.prompt` a whole input.
-/

set_option autoImplicit false

namespace LoxTokens

/-- How sources are scanned, and what of it is logged. -/
structure Session where
  options : Options
  threshold : Threshold
  deriving DecidableEq, Repr

namespace Session

/-- A record, if the threshold lets it through. -/
def log (s : Session) (r : Record) : List Notice :=
  if s.threshold.passes r.level then [.record r] else []

/-- The output with which a session opens. -/
def opening (s : Session) : Output := { stderr := s.log (.starting s.options) }

/-- The items of a source. -/
def items (s : Session) (source : Text) : List Item := (Scanner.ofText s.options source).items

/-- What is printed for a source. -/
def scan (s : Session) (source : Text) : Output :=
  let items := s.items source
  let found := Scan.ofItems items
  { stdout := found.tokens.flatMap fun t ↦ t.text ++ ['\n']
    stderr :=
      (Record.ofItems items).flatMap s.log ++ found.errors.map fun e ↦ Notice.line e.text }

/-- Whether a source has errors. -/
def hasErrors (s : Session) (source : Text) : Bool :=
  !(Scan.ofItems (s.items source)).errors.isEmpty

/-! ## Files -/

/-- The outcome of scanning a file, given what reading it came to. -/
def ofFile (s : Session) (path : Text) (contents : Except Failure Bytes) : Outcome :=
  let source := contents.bind fun b ↦
    match b.text? with
    | some t => .ok t
    | none => .error Failure.invalidUtf8
  match source with
  | .ok t => ⟨if s.hasErrors t then .badData else .success, s.scan t⟩
  | .error f =>
    let message := "Error: could not read ".toList ++ path ++ ": ".toList ++ f.message
    ⟨.noInput, { stderr := [.line message] }⟩

/-! ## The prompt -/

/-- What invites the next line. -/
def invitation : Output := { stdout := "> ".toList }

/-- What is printed for one line at the prompt.  A blank line is not scanned. -/
def reply (s : Session) (line : Bytes) : Except Failure Output :=
  match line.text? with
  | none => .error Failure.invalidUtf8
  | some t => .ok (if isBlank t then {} else s.scan t)

/-- The outcome when a line at the prompt cannot be read. -/
def unreadable (f : Failure) : Outcome :=
  ⟨.readFailure,
    { stderr := [.line ("Error: could not read from stdin: ".toList ++ f.message)] }⟩

/-- The outcome of answering one line after the other.  Lexical errors do not end the session and do
not change its status. -/
def prompt (s : Session) : List Bytes → Outcome
  | [] => ⟨.success, invitation⟩
  | line :: lines =>
    match s.reply line with
    | .ok answer => (s.prompt lines).after (invitation ++ answer)
    | .error f => (unreadable f).after invitation

end Session
end LoxTokens
