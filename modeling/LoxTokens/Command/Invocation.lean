import LoxTokens.Options
import LoxTokens.Text.Terminal

/-!
# Invocations

The arguments of the command line are read from left to right.  The first usage error, or the first
request for help or for the version, decides; otherwise the arguments are the settings of a scan.

* `Flag` is what can be switched on, by a long name or a letter.
* `UsageError` is what can be wrong with the arguments, and `UsageError.message` words it.
* `Request.ofArguments` reads the arguments.
-/

set_option autoImplicit false

namespace LoxTokens

/-- What an argument can switch on. -/
inductive Flag
  | suppressEmptyStrings
  | caseInsensitiveKeywords
  | verbose
  | help
  | version
  deriving DecidableEq, Repr

namespace Flag

/-- All flags, in the order in which the help lists them. -/
def all : List Flag := [suppressEmptyStrings, caseInsensitiveKeywords, verbose, help, version]

/-- The name of a flag, which follows two hyphens. -/
def name : Flag → Text
  | suppressEmptyStrings => "suppress-empty-strings".toList
  | caseInsensitiveKeywords => "case-insensitive-keywords".toList
  | verbose => "verbose".toList
  | help => "help".toList
  | version => "version".toList

/-- The letter of a flag, which follows one hyphen, if it has one. -/
def letter? : Flag → Option Char
  | verbose => some 'v'
  | help => some 'h'
  | version => some 'V'
  | _ => none

/-- The flag with a given name.  Names are not abbreviated. -/
def ofName? (name : Text) : Option Flag := all.find? fun f ↦ f.name = name

/-- The flag with a given letter. -/
def ofLetter? (c : Char) : Option Flag := all.find? fun f ↦ f.letter? = some c

/-- A flag as it is quoted in a message. -/
def text (f : Flag) : Text := "--".toList ++ f.name

end Flag

/-- What is wrong with the arguments. -/
inductive UsageError
  /-- A flag that does not exist, or a second path. -/
  | unexpectedArgument (argument : Text)
  /-- A value for a flag that takes none. -/
  | unexpectedValue (value : Text) (flag : Flag)
  /-- A flag that was given before. -/
  | repeatedFlag (flag : Flag)
  /-- A path without any characters. -/
  | emptyPath
  deriving DecidableEq, Repr

/-- The wording of a usage error, in one line.  What it quotes of the arguments is quoted without
control sequences, so that an argument cannot play tricks on the terminal. -/
def UsageError.message (e : UsageError) : Text :=
  Text.firstLine <| "error: ".toList ++ match e with
    | unexpectedArgument a =>
      "unexpected argument '".toList ++ Terminal.visible a ++ "' found".toList
    | unexpectedValue v f =>
      "unexpected value '".toList ++ Terminal.visible v ++ "' for '".toList ++ f.text ++
        "' found; no more were expected".toList
    | repeatedFlag f =>
      "the argument '".toList ++ f.text ++ "' cannot be used multiple times".toList
    | emptyPath => "a value is required for '[PATH]' but none was supplied".toList

/-- The settings of a scan. -/
structure Settings where
  options : Options := {}
  verbose : Bool := false
  /-- The file to scan.  Without one, the lines of the standard input are scanned. -/
  path? : Option Text := none
  deriving DecidableEq, Repr

/-- What the program is asked to do. -/
inductive Request
  | help
  | version
  | scan (settings : Settings)
  deriving DecidableEq, Repr

/-- What the arguments come to. -/
abbrev Verdict := Except UsageError Request

/-! ## Reading the arguments -/

/-- What the arguments that were read so far have said. -/
structure Arguments where
  /-- The flags that were switched on. -/
  flags : List Flag := []
  /-- The path, if one was given. -/
  path? : Option Text := none
  /-- Whether two hyphens have declared that only paths follow. -/
  onlyPaths : Bool := false
  deriving DecidableEq, Repr

namespace Arguments

/-- Switches on a flag.  An empty path that came before is refused first. -/
def switchOn (a : Arguments) (f : Flag) : Except Verdict Arguments :=
  if a.path? = some [] then throw (.error .emptyPath)
  else match f with
    | .help => throw (.ok .help)
    | .version => throw (.ok .version)
    | f =>
      if f ∈ a.flags then throw (.error (.repeatedFlag f))
      else return { a with flags := f :: a.flags }

/-- Takes a path.  There can be only one. -/
def takePath (a : Arguments) (path : Text) : Except Verdict Arguments :=
  if a.path?.isSome then throw (.error (.unexpectedArgument path))
  else return { a with path? := some path }

/-- Takes the letter of a flag. -/
def takeLetter (a : Arguments) (c : Char) : Except Verdict Arguments :=
  match Flag.ofLetter? c with
  | some f => a.switchOn f
  | none => throw (.error (.unexpectedArgument ['-', c]))

/-- Takes the name of a flag, with what follows an equals sign as a value. -/
def takeName (a : Arguments) (argument : Text) : Except Verdict Arguments :=
  let name := argument.takeWhile (· != '=')
  match Flag.ofName? name, argument.dropWhile (· != '=') with
  | none, _ => throw (.error (.unexpectedArgument ("--".toList ++ name)))
  | some f, [] => a.switchOn f
  | some f, _ :: value => throw (.error (.unexpectedValue value f))

/-- Takes the next argument.  A single hyphen is a path like any other. -/
def take (a : Arguments) (argument : Text) : Except Verdict Arguments :=
  if a.onlyPaths then a.takePath argument
  else match argument with
    | ['-', '-'] => return { a with onlyPaths := true }
    | '-' :: '-' :: name => a.takeName name
    | '-' :: c :: letters => (c :: letters).foldlM takeLetter a
    | _ => a.takePath argument

/-- What the arguments come to when there are no more of them. -/
def verdict (a : Arguments) : Verdict :=
  if a.path? = some [] then .error .emptyPath
  else
    .ok <| .scan
      { options :=
          { emptyStrings := if .suppressEmptyStrings ∈ a.flags then .suppress else .emit
            keywordCase := if .caseInsensitiveKeywords ∈ a.flags then .insensitive else .exact }
        verbose := .verbose ∈ a.flags
        path? := a.path? }

end Arguments

/-- What a list of arguments asks for. -/
def Request.ofArguments (arguments : List Text) : Verdict :=
  match arguments.foldlM Arguments.take {} with
  | .ok a => a.verdict
  | .error verdict => verdict

end LoxTokens
