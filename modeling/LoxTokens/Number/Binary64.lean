import LoxTokens.Number.Decimal

/-!
# Binary64 numbers

A `Binary64` is a floating-point number of 64 bits: a sign, an exponent of eleven bits and a
fraction of fifty-two.  All arithmetic here is exact, on natural numbers; a finite number is an
integer count of the smallest positive one, which is `2 ^ (-1074)`.

* `Binary64.significand` and `Binary64.scale` give that count, for the absolute value: the one times
  two to the power of the other.
* `Binary64.ofRatio` rounds a quotient of natural numbers to the nearest binary64 number, a half to
  the even neighbour.  What is too large becomes infinity, and what is too small zero.
* `Binary64.ofDecimal` does so for a decimal.
* `Binary64.sameValue` compares numbers, not bits: the two zeros are the same value, and a NaN is
  not the same as anything.
-/

set_option autoImplicit false

namespace LoxTokens

/-- A binary64 floating-point number, given by its bits. -/
structure Binary64 where
  bits : UInt64
  deriving DecidableEq, Repr

namespace Binary64

/-- The weight of the sign bit. -/
abbrev signUnit : Nat := Nat.pow 2 63

/-- The weight of the last bit of the exponent, which is also what a leading one adds to the
fraction. -/
abbrev exponentUnit : Nat := Nat.pow 2 52

/-- The bits of positive infinity: an exponent of all ones over an empty fraction. -/
def infinityBits : Nat := 2047 * exponentUnit

/-- The bits of the absolute value. -/
def magnitude (x : Binary64) : Nat := x.bits.toNat % signUnit

/-- Whether the sign bit is set. -/
def isNegative (x : Binary64) : Bool := signUnit ≤ x.bits.toNat

/-- Whether the bits are those of a NaN. -/
def isNaN (x : Binary64) : Bool := infinityBits < x.magnitude

/-- Whether the number is one of the two infinities. -/
def isInfinite (x : Binary64) : Bool := x.magnitude = infinityBits

/-- Whether the number is one of the two zeros. -/
def isZero (x : Binary64) : Bool := x.magnitude = 0

/-- The number without a sign that has the given bits. -/
def ofMagnitude (m : Nat) : Binary64 := ⟨UInt64.ofNat m⟩

/-- The absolute value. -/
def abs (x : Binary64) : Binary64 := ofMagnitude x.magnitude

/-- The significand: the fraction, with a leading one unless the exponent is empty. -/
def significand (x : Binary64) : Nat :=
  x.magnitude % exponentUnit + if x.magnitude / exponentUnit = 0 then 0 else exponentUnit

/-- The number of binary places by which the significand is shifted.  An empty exponent and an
exponent of one mean the same place. -/
def scale (x : Binary64) : Nat := x.magnitude / exponentUnit - 1

/-- Equality of values: NaN differs from everything, and zero has no sign. -/
def sameValue (x y : Binary64) : Bool :=
  !x.isNaN && !y.isNaN && (x = y || x.isZero && y.isZero)

/-! ## Rounding -/

/-- The quotient `n / d` rounded to the nearest natural number, a half to the even one. -/
def roundHalfEven (n d : Nat) : Nat :=
  let q := n / d
  let r := n % d
  if 2 * r < d ∨ 2 * r = d ∧ q % 2 = 0 then q else q + 1

/-- The binary64 number nearest to `num / den`.

The quotient is first counted in units of `2 ^ (-1074)`.  Dropping `shift` of its binary places
leaves the fifty-three that a significand holds, or all of them if there are fewer, and rounding
gives the significand `m`.  As bits, `shift * 2 ^ 52 + m` has the right exponent and fraction in
every case: a significand below `2 ^ 52` is only possible for `shift = 0` and is a subnormal number,
and one that was rounded up to `2 ^ 53` carries into the exponent. -/
def ofRatio (num den : Nat) : Binary64 :=
  let scaled := num * Nat.pow 2 1074
  let shift := (scaled / den).log2 - 52
  let rounded := shift * exponentUnit + roundHalfEven scaled (den * Nat.pow 2 shift)
  ofMagnitude (min rounded infinityBits)

/-- The binary64 number nearest to a decimal. -/
def ofDecimal (d : Decimal) : Binary64 := ofRatio d.numerator d.denominator

end Binary64
end LoxTokens
