import LoxTokens.Text.Basic

/-!
# Decimals

A `Decimal` is a natural number times a power of ten: what a run of digits with a point in it
denotes, exactly and however many digits there are.

* `Decimal.ofDigits` is the value of a run of digits, and `Decimal.ofParts` that of a run of digits
  with a fraction.
* `Decimal.numerator` and `Decimal.denominator` give the value as a quotient of natural numbers.
* `Decimal.trim` drops the trailing zeros of the coefficient, which keeps the value.
* `Decimal.text` writes a decimal positionally if it is neither very small nor very large, and with
  an exponent otherwise.
-/

set_option autoImplicit false

namespace LoxTokens

-- Powers are spelled `Nat.pow`, so that they do not depend on which other powers are in scope.

/-- The number `coefficient * 10 ^ exponent`. -/
structure Decimal where
  coefficient : Nat
  exponent : Int
  deriving DecidableEq, Repr

namespace Decimal

/-- The value of a run of decimal digits. -/
def ofDigits (digits : Text) : Nat := Nat.ofDigitChars 10 digits 0

/-- The value of the digits `whole`, a point and the digits `fraction`. -/
def ofParts (whole fraction : Text) : Decimal :=
  ⟨ofDigits (whole ++ fraction), -(fraction.length : Int)⟩

/-- The value of a decimal is its numerator divided by its denominator. -/
def numerator (d : Decimal) : Nat := d.coefficient * Nat.pow 10 d.exponent.toNat

/-- The power of ten that divides the numerator. -/
def denominator (d : Decimal) : Nat := Nat.pow 10 (-d.exponent).toNat

/-- The significant digits of a decimal. -/
def digits (d : Decimal) : Text := Text.ofNat d.coefficient

/-- The same number with a coefficient that does not end in zero, unless it is zero. -/
def trim (d : Decimal) : Decimal :=
  if d.coefficient ≠ 0 ∧ d.coefficient % 10 = 0 then
    trim ⟨d.coefficient / 10, d.exponent + 1⟩
  else d
  termination_by d.coefficient
  decreasing_by omega

/-! ## Writing -/

/-- The digits with a point after the first `point` of them.  Zeros fill the places between the
point and the digits, and at least one digit stands on each side of the point. -/
def positional (digits : Text) (point : Int) : Text :=
  if point ≤ 0 then
    '0' :: '.' :: List.replicate (-point).toNat '0' ++ digits
  else if (digits.length : Int) ≤ point then
    digits ++ List.replicate (point.toNat - digits.length) '0' ++ ['.', '0']
  else
    digits.take point.toNat ++ '.' :: digits.drop point.toNat

/-- The first digit, a point before the other digits if there are any, and the power of ten. -/
def scientific (digits : Text) (exponent : Int) : Text :=
  digits.take 1 ++ (if digits.length ≤ 1 then [] else '.' :: digits.drop 1) ++
    'e' :: Text.ofInt exponent

/-- How a decimal is written: positionally from `10 ^ (-4)` up to, but not including, `10 ^ 16`, and
with an exponent outside that range. -/
def text (d : Decimal) : Text :=
  let point : Int := d.digits.length + d.exponent
  if -4 < point ∧ point ≤ 16 then positional d.digits point
  else scientific d.digits (point - 1)

end Decimal
end LoxTokens
