import FlatTree.Number.Decimal

/-!
# The binary64 number nearest to a decimal

A positive number is scaled by the power of two that leaves 53 bits before the point, or fewer where
the exponent cannot go lower, and rounded there; a tie goes to the even neighbour. Numbers beyond
the greatest finite one round to infinity, and numbers below half the least one to zero.

- `Binary64.nearestRatio`: the bits nearest to a fraction.
- `Decimal.nearest`: the bits nearest to a decimal.
-/

namespace FlatTree

namespace Binary64

/-- A quotient rounded to the nearest integer, a tie to the even one. -/
def roundQuotient (num den : Nat) : Nat :=
  let below := num / den
  let rest := 2 * (num % den)
  if rest < den then below
  else if den < rest then below + 1
  else below + below % 2

/-- The power of two that is the unit of the last bit of a positive fraction. -/
def unitExponent (num den : Nat) : Int :=
  let guess : Int := (num.log2 : Int) - den.log2 - 53
  -- The fraction is between `2 ^ 52` and `2 ^ 54` units of the guess.
  let whole := num * Nat.pow 2 (-guess).toNat / (den * Nat.pow 2 guess.toNat)
  max (if whole < 2 * hiddenBit then guess else guess + 1) (-1074)

/-- The bits of the number nearest to a positive fraction. A significand that rounds up to `2 ^ 53`
carries into the exponent field. -/
def nearestRatio (num den : Nat) : UInt64 :=
  let unit := unitExponent num den
  let significand := roundQuotient (num * Nat.pow 2 (-unit).toNat) (den * Nat.pow 2 unit.toNat)
  let bits := (unit + 1074).toNat * hiddenBit + significand
  if bits < infinity.toNat then bits.toUInt64 else infinity

/-- The bits of the opposite number. -/
def negate (bits : UInt64) : UInt64 := bits ^^^ 0x8000000000000000

end Binary64

namespace Decimal

/-- The bits of the number nearest to a decimal. Powers of ten out of all range need no scaling. -/
def nearest (d : Decimal) : UInt64 :=
  let length : Int := (Nat.toDigits 10 d.digits).length
  if d.digits = 0 then 0
  else if 309 < length + d.exponent then Binary64.infinity
  else if length + d.exponent < -323 then 0
  else
    Binary64.nearestRatio (d.digits * Nat.pow 10 d.exponent.toNat)
      (Nat.pow 10 (-d.exponent).toNat)

end Decimal

end FlatTree
