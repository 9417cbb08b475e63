import FlatTree.Number.Binary64

/-!
# The shortest decimal of a binary64 number

Among the decimals that read back as a given binary64 number, the one with the fewest digits, and
among those the nearest. A decimal reads back if it lies in the interval of reals that round to the
number; its ends count when the significand is even. The grids of multiples of `10 ^ k` are tried
from coarse to fine. On each grid only the two neighbours of the number matter: if any multiple
lies in the interval, so does one of them.

- `Rounding.ofBits`: the interval around a positive finite number.
- `Rounding.onGrid?`: the nearest multiple of a power of ten in the interval.
- `Decimal.shortest`: the decimal.
-/

namespace FlatTree

/-- The number `digits * 10 ^ exponent`. -/
structure Decimal where
  digits : Nat
  exponent : Int
  deriving DecidableEq, Repr

/-- Where a number exactly between two decimals goes. -/
inductive Tie where
  | up
  | even
  deriving DecidableEq, Repr

/-- A positive number and the interval of reals that round to it, in units of `2 ^ exponent`. -/
structure Rounding where
  low : Nat
  value : Nat
  high : Nat
  /-- The ends of the interval belong to it. -/
  closed : Bool
  exponent : Int
  deriving DecidableEq, Repr

namespace Rounding

/-- The interval around a positive finite number. Its ends lie half-way to the neighbours; below a
power of two the neighbour is nearer, unless the exponent cannot go lower. -/
def ofBits (bits : UInt64) : Rounding :=
  let m := Binary64.significand bits
  let narrow := Binary64.fraction bits = 0 ∧ 1 < Binary64.exponentField bits
  { low := if narrow then 4 * m - 1 else 4 * m - 2
    value := 4 * m
    high := 4 * m + 2
    closed := m % 2 = 0
    exponent := Binary64.exponent bits - 2 }

/-- The unit of the interval over the unit `10 ^ k` of a grid, as a fraction. -/
def unitRatio (i : Rounding) (k : Int) : Nat × Nat :=
  (Nat.pow 2 i.exponent.toNat * Nat.pow 10 (-k).toNat,
    Nat.pow 2 (-i.exponent).toNat * Nat.pow 10 k.toNat)

/-- The multiple `n` of the grid unit lies in the interval, where a unit of the interval is
`num / den` of the grid unit. -/
def contains (i : Rounding) (num den n : Nat) : Bool :=
  if i.closed then i.low * num ≤ n * den && n * den ≤ i.high * num
  else i.low * num < n * den && n * den < i.high * num

/-- The multiple of `10 ^ k` in the interval that is nearest to the number. -/
def onGrid? (tie : Tie) (i : Rounding) (k : Int) : Option Nat :=
  let (num, den) := i.unitRatio k
  let below := i.value * num / den
  let above := below + 1
  match i.contains num den below, i.contains num den above with
  | false, false => none
  | true, false => some below
  | false, true => some above
  | true, true =>
    let rest := 2 * (i.value * num - below * den)
    if rest < den then some below
    else if den < rest then some above
    else
      match tie with
      | .up => some above
      | .even => if below % 2 = 0 then some below else some above

end Rounding

namespace Decimal

/-- Without zeros at the end of the digits. -/
def trim (digits : Nat) (exponent : Int) : Decimal :=
  if h : digits ≠ 0 ∧ digits % 10 = 0 then trim (digits / 10) (exponent + 1)
  else ⟨digits, exponent⟩
termination_by digits
decreasing_by omega

/-- Tries the grids of `10 ^ k`, `10 ^ (k - 1)` and so on, so many of them. -/
def firstHit (tie : Tie) (i : Rounding) : Nat → Int → Decimal
  | 0, k => ⟨i.value * (i.unitRatio k).1 / (i.unitRatio k).2, k⟩
  | n + 1, k =>
    match i.onGrid? tie k with
    | some digits => trim digits k
    | none => firstHit tie i n (k - 1)

/-- A grid that is too coarse for a number below `2 ^ e`, by the first digits of the logarithm of
two. -/
def coarsest (e : Int) : Int := e * 30103 / 100000 + 1

/-- The shortest decimal that reads back as a positive finite number. Seventeen digits always do,
and at most two grids are too coarse to have a multiple near the number. -/
def shortest (tie : Tie) (bits : UInt64) : Decimal :=
  let i := Rounding.ofBits bits
  firstHit tie i 24 (coarsest (i.value.log2 + 1 + i.exponent))

end Decimal

end FlatTree
