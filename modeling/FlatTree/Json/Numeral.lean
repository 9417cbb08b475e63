import FlatTree.Buffer.Word
import FlatTree.Json.Basic
import FlatTree.Number.Reading

/-!
# Numbers in JSON texts

A number without point and exponent that fits into 64 bits is an integer; any other is a binary64
number. That one is computed in three steps, each rounded by itself. The digits are taken into a
64-bit significand until the next one would not fit; whole digits after that count as powers of ten
and further decimals are dropped. The significand is rounded to a binary64 number, and that number
is multiplied or divided by the power of ten. The result is close to the number that was written,
but not always the nearest.

- `Numeral.ofChars?`: the parts of a written number.
- `Numeral.value?`: its value, unless it is too large.
-/

namespace FlatTree

/-- The parts of a written number. -/
structure Numeral where
  negative : Bool
  whole : List Char
  /-- The digits after the point, if there is one. -/
  fraction : Option (List Char)
  /-- The sign of the exponent and its digits, if there is one. -/
  exponent : Option (Bool × List Char)
  deriving DecidableEq, Repr

namespace Numeral

/-! ## The parts -/

/-- Digits of which there is at least one. -/
def areDigits (digits : List Char) : Bool := !digits.isEmpty && digits.all Char.isDigit

/-- The exponent that a text consists of, if it is not empty. -/
def exponentPart? : List Char → Option (Option (Bool × List Char))
  | [] => some none
  | e :: rest =>
    let (negative, digits) := Reading.sign rest
    if (e = 'e' ∨ e = 'E') ∧ areDigits digits then some (some (negative, digits)) else none

/-- The parts of a text that is a number. A zero stands alone before the point. -/
def ofChars? (text : List Char) : Option Numeral := do
  let (negative, text) :=
    match text with
    | '-' :: rest => (true, rest)
    | rest => (false, rest)
  let whole := text.takeWhile Char.isDigit
  if whole.isEmpty || (whole.head? = some '0' && whole.length ≠ 1) then none
  else
    match text.dropWhile Char.isDigit with
    | '.' :: rest =>
      let fraction := rest.takeWhile Char.isDigit
      if fraction.isEmpty then none
      else do
        let exponent ← exponentPart? (rest.dropWhile Char.isDigit)
        return ⟨negative, whole, some fraction, exponent⟩
    | rest => return ⟨negative, whole, none, ← exponentPart? rest⟩

/-! ## The value -/

/-- Takes digits into a significand while it fits into a word. Answers how many digits are
left over too. -/
def absorb (significand : Nat) : List Char → Nat × Nat
  | [] => (significand, 0)
  | c :: rest =>
    let next := 10 * significand + (c.toNat - '0'.toNat)
    if next ≤ maxWord.toNat then absorb next rest else (significand, rest.length + 1)

/-- The binary64 number nearest to a power of ten. -/
def powerOfTen (n : Nat) : Float := Float.ofBits (Decimal.nearest ⟨1, n⟩)

/-- The greatest power of ten that is a finite number. -/
def greatestPower : Nat := 308

/-- Multiplies or divides a number by a power of ten, in one step where the power is a finite
number. There is no result if it is infinite. -/
def scale? (x : Float) (exponent : Int) : Option Float :=
  if exponent.natAbs ≤ greatestPower then
    if 0 ≤ exponent then
      let y := x * powerOfTen exponent.toNat
      if y.isInf then none else some y
    else some (x / powerOfTen exponent.natAbs)
  else if x == 0 then some x
  else if 0 ≤ exponent then none
  else scale? (x / powerOfTen greatestPower) (exponent + greatestPower)
termination_by exponent.natAbs
decreasing_by simp only [greatestPower] at *; omega

/-- The greatest exponent that is computed with. Beyond it a number is zero or too large. -/
def greatestExponent : Nat := 0x7FFFFFFF

/-- The binary64 number of a significand, so many powers of ten and a written exponent. -/
def scaled? (significand : Nat) (powers : Int) (exponent : Option (Bool × List Char)) :
    Option Float :=
  let x := significand.toUInt64.toFloat
  match exponent with
  | none => scale? x powers
  | some (negative, digits) =>
    let e := Reading.ofDigits digits
    if e ≤ greatestExponent then scale? x (powers + if negative then -(e : Int) else e)
    else if significand = 0 || negative then some 0
    else none

/-- The number as binary64. -/
def double? (n : Numeral) : Option Json.Number := do
  let (whole, dropped) := absorb 0 n.whole
  let fraction := n.fraction.getD []
  let (significand, unused) := absorb whole fraction
  let x ← scaled? significand (dropped - (fraction.length - unused : Nat)) n.exponent
  return .double (if n.negative then -x else x).toBits

/-- The number as an integer, if it is written and fits as one. A negative zero is none. -/
def integer? (n : Numeral) : Option Json.Number :=
  let value := Reading.ofDigits n.whole
  if n.fraction.isSome || n.exponent.isSome then none
  else if n.negative then
    if value ≠ 0 ∧ value ≤ Reading.integerBound then some (.integer (-value)) else none
  else if value ≤ maxWord.toNat then some (.integer value) else none

/-- The value of a number, unless it is too large. -/
def value? (n : Numeral) : Option Json.Number := n.integer? <|> n.double?

end Numeral

end FlatTree
