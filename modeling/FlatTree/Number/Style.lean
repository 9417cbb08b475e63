import FlatTree.Number.Decimal

/-!
# Styles of written numbers

A style fixes how the shortest decimal of a binary64 number is laid out: down to and up to which
power of ten it is positional, how an exponent looks, and whether a whole number shows a fraction.

- `Style.write`: the text of a number in a style.
- `Style.valueText`: in rendered values. `1.5`, `1e16`, `1e-5`, `-0.0`.
- `Style.json`: in JSON. `1.5`, `1e+16`, `0.00001`.
- `Style.plain`: in reports. `1.5`, `3`, `10000000000000000`; never an exponent.
-/

namespace FlatTree

/-- How a number is laid out. -/
structure Style where
  /-- Where a number exactly between two shortest decimals goes. -/
  tie : Tie
  /-- The least and the greatest power of ten of a first digit that are written positionally, or
  none if all are. -/
  positional : Option (Int × Int)
  /-- A whole number in positional form ends in `.0`. -/
  pointZero : Bool
  /-- What stands before the digits of an exponent that is not negative. -/
  plus : String
  deriving DecidableEq, Repr

namespace Style

/-- Rendered values: positional from `0.0001` up to, but not including, `1e16`. -/
def valueText : Style := ⟨.up, some (-4, 15), true, ""⟩

/-- JSON: positional from `0.00001` up to, but not including, `1e+16`. -/
def json : Style := ⟨.even, some (-5, 15), true, "+"⟩

/-- Reports: always positional, and whole numbers without a fraction. -/
def plain : Style := ⟨.up, none, false, ""⟩

/-- So many zeros. -/
def zeros (n : Nat) : String := String.ofList (List.replicate n '0')

/-- A text of digits with a point before the digit at `point`. -/
def positionalText (style : Style) (digits : String) (point : Int) : String :=
  if point ≤ 0 then
    "0." ++ zeros (-point).toNat ++ digits
  else if (digits.length : Int) ≤ point then
    digits ++ zeros (point.toNat - digits.length) ++ if style.pointZero then ".0" else ""
  else
    String.ofList (digits.toList.take point.toNat) ++ "." ++
      String.ofList (digits.toList.drop point.toNat)

/-- A text of digits with a point after the first one, and an exponent. -/
def exponentText (style : Style) (digits : String) (exponent : Int) : String :=
  let first := String.ofList (digits.toList.take 1)
  let rest := String.ofList (digits.toList.drop 1)
  let mantissa := if rest.isEmpty then first else first ++ "." ++ rest
  let sign := if exponent < 0 then "-" else style.plus
  mantissa ++ "e" ++ sign ++ toString exponent.natAbs

/-- A positive finite number. -/
def writeDecimal (style : Style) (d : Decimal) : String :=
  let digits := toString d.digits
  let exponent := (digits.length : Int) + d.exponent - 1
  let isPositional :=
    match style.positional with
    | none => true
    | some (least, greatest) => least ≤ exponent && exponent ≤ greatest
  if isPositional then style.positionalText digits (exponent + 1)
  else style.exponentText digits exponent

/-- A number, by its bits. -/
def write (style : Style) (bits : UInt64) : String :=
  if Binary64.isNaN bits then "NaN"
  else
    let sign := if Binary64.negative bits then "-" else ""
    if Binary64.isInfinite bits then sign ++ "inf"
    else if Binary64.isZero bits then sign ++ if style.pointZero then "0.0" else "0"
    else sign ++ style.writeDecimal (Decimal.shortest style.tie bits)

end Style

end FlatTree
