import FlatTree.Number.Nearest

/-!
# Reading numbers

Whole texts that stand for a number. Digits are the ten ASCII ones, and a sign of either kind may
stand first; nothing else may stand around a number.

- `Reading.integer?`: an integer of 64 bits with a sign.
- `Reading.double?`: a binary64 number. `5`, `5.`, `.5`, `1e-3`, `inf`, `infinity`, `nan`; letters
  of either case.
-/

namespace FlatTree.Reading

/-- Whether a minus sign stands first, and what follows the sign. -/
def sign : List Char → Bool × List Char
  | '-' :: rest => (true, rest)
  | '+' :: rest => (false, rest)
  | rest => (false, rest)

/-- The number that digits stand for. -/
def ofDigits (digits : List Char) : Nat :=
  digits.foldl (fun n c => 10 * n + (c.toNat - '0'.toNat)) 0

/-- The number of one or more digits. -/
def natural? (digits : List Char) : Option Nat :=
  if digits.isEmpty || !digits.all Char.isDigit then none else some (ofDigits digits)

/-- The magnitude of the least integer of 64 bits with a sign. -/
def integerBound : Nat := 0x8000000000000000

/-- An integer of 64 bits with a sign. -/
def integer? (text : List Char) : Option Int := do
  let (negative, digits) := sign text
  let n ← natural? digits
  if negative then
    if n ≤ integerBound then some (-n) else none
  else
    if n < integerBound then some n else none

/-- The power of ten after a number without it. -/
def exponent? : List Char → Option Int
  | [] => some 0
  | e :: rest =>
    if e = 'e' ∨ e = 'E' then
      let (negative, digits) := sign rest
      (natural? digits).map fun (n : Nat) => if negative then -(n : Int) else n
    else none

/-- A number without a sign: digits with a point before, between or after them. -/
def decimal? (text : List Char) : Option Decimal :=
  let whole := text.takeWhile Char.isDigit
  let (fraction, rest) :=
    match text.dropWhile Char.isDigit with
    | '.' :: after => (after.takeWhile Char.isDigit, after.dropWhile Char.isDigit)
    | after => ([], after)
  if whole.isEmpty && fraction.isEmpty then none
  else (exponent? rest).map fun e => ⟨ofDigits (whole ++ fraction), e - fraction.length⟩

/-- The bits of a NaN without a sign. -/
def nan : UInt64 := 0x7FF8000000000000

/-- The bits of a number without a sign, or of its name. -/
def magnitude? (text : List Char) : Option UInt64 :=
  match decimal? text with
  | some d => some d.nearest
  | none =>
    let name := String.ofList (text.map Char.toLower)
    if name = "inf" ∨ name = "infinity" then some Binary64.infinity
    else if name = "nan" then some nan
    else none

/-- The bits of a binary64 number. -/
def double? (text : List Char) : Option UInt64 :=
  let (negative, rest) := sign text
  (magnitude? rest).map fun bits => if negative then Binary64.negate bits else bits

end FlatTree.Reading
