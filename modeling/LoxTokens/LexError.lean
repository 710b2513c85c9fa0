import LoxTokens.Failure

/-!
# Lexical errors

What can be wrong with a piece of source: a character that starts no token, a string without its
closing quote, or an integer that is out of range.  A `LexError` is such a fault with a line.

* `Fault.message` words a fault, and `LexError.text` adds the line.
* `Fault.sameKind` compares faults and ignores which digits were out of range.
* `LexError.toFailure` turns an error into a failure of the input.
-/

set_option autoImplicit false

namespace LoxTokens

/-- What is wrong with a piece of source. -/
inductive Fault
  | unexpectedCharacter (c : Char)
  | unterminatedString
  | invalidNumber (digits : Text)
  deriving DecidableEq, Repr

namespace Fault

/-- The wording of a fault. -/
def message : Fault → Text
  | unexpectedCharacter c => "Unexpected character '".toList ++ c :: "'.".toList
  | unterminatedString => "Unterminated string.".toList
  | invalidNumber digits =>
    "Integer literal '".toList ++ digits ++ "' is out of range.".toList

/-- Whether two faults are of one kind.  The kind of an unexpected character includes the character,
but that of an invalid number does not include its digits. -/
def sameKind : Fault → Fault → Bool
  | invalidNumber _, invalidNumber _ => true
  | f, g => f = g

end Fault

/-- A fault and the line on which it was noticed. -/
structure LexError where
  fault : Fault
  line : Nat
  deriving DecidableEq, Repr

namespace LexError

/-- The displayed form of an error. -/
def text (e : LexError) : Text :=
  "[line ".toList ++ Text.ofNat e.line ++ "] Error: ".toList ++ e.fault.message

/-- The error as a failure of the input that was scanned. -/
def toFailure (e : LexError) : Failure := ⟨.invalidData, e.text⟩

end LexError
end LoxTokens
