import LoxTokens.Number.Shortest

/-!
# Number literals

A number literal is an integer of 64 bits if it has no point, and a binary64 number otherwise.

* `Number.ofDigits?` reads an integer literal, and refuses one of `2 ^ 63` or more.
* `Number.ofParts` reads a literal with a point.  It never fails: it rounds.
* `Number.text` writes a number together with its type.
* `Number.sameValue` compares two numbers.  An integer is never the same as a floating-point number.
-/

set_option autoImplicit false

namespace LoxTokens

/-- The value of a number literal. -/
inductive Number
  | integer (value : Int64)
  | float (value : Binary64)
  deriving DecidableEq, Repr

namespace Number

/-- The integer literals are the numbers below this bound. -/
abbrev integerBound : Nat := Nat.pow 2 63

/-- The value of a literal that consists of the given digits, unless it is out of range. -/
def ofDigits? (digits : Text) : Option Number :=
  if Decimal.ofDigits digits < integerBound then
    some (.integer (Int64.ofNat (Decimal.ofDigits digits)))
  else none

/-- The value of a literal with the given digits before and after its point. -/
def ofParts (whole fraction : Text) : Number :=
  .float (Binary64.ofDecimal (Decimal.ofParts whole fraction))

/-- How a number is written. -/
def text : Number → Text
  | integer v => "INTEGER(".toList ++ Text.ofInt v.toInt ++ [')']
  | float x => "FLOATING_POINT(".toList ++ x.text ++ [')']

/-- Equality of values, where floating-point numbers are compared as numbers. -/
def sameValue : Number → Number → Bool
  | integer v, integer w => v = w
  | float x, float y => x.sameValue y
  | _, _ => false

end Number
end LoxTokens
