import LoxTokens.Text.Basic

/-!
# Input failures

Why an input could not be used: it is not there, it is no file, or it holds invalid data.  A
`Failure` has a kind, for programs, and a message, for people.
-/

set_option autoImplicit false

namespace LoxTokens

/-- The kinds of failure to read or use an input. -/
inductive FailureKind
  | notFound
  | isDirectory
  | notDirectory
  | invalidData
  | other
  deriving DecidableEq, Repr

/-- A failure to read or use an input. -/
structure Failure where
  kind : FailureKind
  message : Text
  deriving DecidableEq, Repr

namespace Failure

/-- No entry has the given name. -/
def notFound : Failure := ⟨.notFound, "No such file or directory (os error 2)".toList⟩

/-- A directory stands where a file was expected. -/
def isDirectory : Failure := ⟨.isDirectory, "Is a directory (os error 21)".toList⟩

/-- A file stands where a directory was expected. -/
def notDirectory : Failure := ⟨.notDirectory, "Not a directory (os error 20)".toList⟩

/-- The bytes are not the UTF-8 encoding of a text. -/
def invalidUtf8 : Failure := ⟨.invalidData, "stream did not contain valid UTF-8".toList⟩

end Failure
end LoxTokens
