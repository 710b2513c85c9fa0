import LoxTokens.Number.Binary64

/-!
# The shortest decimal of a binary64 number

Many decimals round to the same binary64 number.  The one that is written has the fewest
significant digits; among those it is the nearest to the number, and of two that are equally near
it is the larger.

* `Binary64.exact` is the number itself as a decimal, with all its digits.
* `Binary64.shortest` finds the shortest decimal that rounds back to the number, by looking at the
  two neighbours of the exact value with one digit, with two digits, and so on.  The search ends at
  the latest with the exact value.
* `Binary64.text` writes a binary64 number.
-/

set_option autoImplicit false

namespace LoxTokens

namespace Binary64

/-- The absolute value of a finite number, exactly.  Each binary place after the point makes one
decimal place, since a half is five tenths. -/
def exact (x : Binary64) : Decimal :=
  if 1074 ≤ x.scale then ⟨x.significand * Nat.pow 2 (x.scale - 1074), 0⟩
  else ⟨x.significand * Nat.pow 5 (1074 - x.scale), x.scale - 1074⟩

/-- The multiple of `10 ^ drop` in the last place of `d` that is closest to `d` among its two
neighbours that satisfy `hits`, the larger one if they are equally close. -/
def neighbour? (d : Decimal) (drop : Nat) (hits : Decimal → Bool) : Option Decimal :=
  let step := Nat.pow 10 drop
  let below : Decimal := ⟨d.coefficient / step, d.exponent + drop⟩
  let above : Decimal := ⟨d.coefficient / step + 1, d.exponent + drop⟩
  if hits below && (2 * (d.coefficient % step) < step || !hits above) then some below
  else if hits above then some above
  else none

/-- The shortest decimal that rounds to the absolute value of `x`. -/
def shortest (x : Binary64) : Decimal :=
  let d := x.exact
  let size := d.digits.length
  let found := (List.range size).findSome? fun n ↦
    neighbour? d (size - (n + 1)) fun c ↦ ofDecimal c = x.abs
  (found.getD d).trim

/-- How a binary64 number is written.  NaN has no sign; all else that is negative, zero included,
has a minus sign in front. -/
def text (x : Binary64) : Text :=
  if x.isNaN then "NaN".toList
  else
    (if x.isNegative then ['-'] else []) ++
      (if x.isInfinite then "inf".toList
      else if x.isZero then "0.0".toList
      else x.shortest.text)

end Binary64
end LoxTokens
