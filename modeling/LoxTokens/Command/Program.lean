import LoxTokens.Command.Invocation
import LoxTokens.Command.Session

/-!
# The program

A run of the program as a function of its surroundings: its arguments, the files that it can read,
its standard input and the setting of its log.

* `Program.helpText` and `Program.versionText` are what it says about itself.
* `Program.run` is the outcome of a run.
-/

set_option autoImplicit false

namespace LoxTokens
namespace Program

/-- The answer to a request for help. -/
def helpText : Text :=
  ["Tokenize Lox source and print one token per line",
    "",
    "Usage: loxlex [OPTIONS] [PATH]",
    "",
    "Arguments:",
    "  [PATH]  Source file to tokenize. Starts an interactive prompt when omitted",
    "",
    "Options:",
    "      --suppress-empty-strings     " ++
      "Drop `\"\"` literals instead of emitting an empty string token",
    "      --case-insensitive-keywords  " ++
      "Match keywords regardless of case (`AND` is the keyword `and`)",
    "  -v, --verbose                    Enable debug logging",
    "  -h, --help                       Print help",
    "  -V, --version                    Print version"].flatMap fun line ↦ line.toList ++ ['\n']

/-- The answer to a request for the version. -/
def versionText : Text := "loxlex 0.1.0\n".toList

/-- The outcome for arguments that make no sense. -/
def refuse (e : UsageError) : Outcome := ⟨.usage, { stderr := [.plain e.message] }⟩

/-- The settings of the scan that the arguments ask for, or the outcome if they do not ask for
one. -/
def settings (arguments : List Text) : Except Outcome Settings :=
  match Request.ofArguments arguments with
  | .ok (.scan s) => .ok s
  | .ok .help => .error ⟨.success, { stdout := helpText }⟩
  | .ok .version => .error ⟨.success, { stdout := versionText }⟩
  | .error e => .error (refuse e)

/-- The session that the settings call for. -/
def session (logSetting : Option Text) (s : Settings) : Session :=
  ⟨s.options, Threshold.ofSetting logSetting s.verbose⟩

/-- The outcome of a run with the given setting of the log, way to read a file, standard input and
arguments. -/
def run (logSetting : Option Text) (readFile : Text → Except Failure Bytes) (stdin : Bytes)
    (arguments : List Text) : Outcome :=
  match settings arguments with
  | .error outcome => outcome
  | .ok settings =>
    let s := session logSetting settings
    let outcome := match settings.path? with
      | some path => s.ofFile path (readFile path)
      | none => s.prompt stdin.chunks
    outcome.after s.opening

end Program
end LoxTokens
