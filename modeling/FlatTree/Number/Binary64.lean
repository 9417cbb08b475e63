/-!
# Binary64 numbers by their bits

A double travels through the library as the 64 bits of its slot: one sign bit, eleven exponent
bits and 52 fraction bits.

- `Binary64.isNaN`, `isInfinite`, `isZero`, `negative`: classes of bit patterns.
- `Binary64.significand`, `exponent`: a finite pattern stands for
  `significand * 2 ^ exponent`, up to its sign.
- `Binary64.equal`: equality of the numbers that two patterns stand for.
-/

namespace FlatTree.Binary64

/-- All bits but the sign. -/
def magnitude (bits : UInt64) : UInt64 := bits &&& 0x7FFFFFFFFFFFFFFF

/-- The magnitude of infinity. Larger magnitudes are NaN. -/
def infinity : UInt64 := 0x7FF0000000000000

/-- The sign bit is set. -/
def negative (bits : UInt64) : Bool := bits >>> 63 = 1

/-- Not a number. -/
def isNaN (bits : UInt64) : Bool := infinity < magnitude bits

/-- An infinity of either sign. -/
def isInfinite (bits : UInt64) : Bool := magnitude bits = infinity

/-- A zero of either sign. -/
def isZero (bits : UInt64) : Bool := magnitude bits = 0

/-- The exponent field. -/
def exponentField (bits : UInt64) : Nat := (magnitude bits >>> 52).toNat

/-- The fraction field. -/
def fraction (bits : UInt64) : Nat := (bits &&& 0xFFFFFFFFFFFFF).toNat

/-- The bit above the fraction, which normal numbers have without writing it. -/
def hiddenBit : Nat := 0x10000000000000

/-- The integer that a finite number scales: the fraction, with the hidden bit unless the number is
subnormal. -/
def significand (bits : UInt64) : Nat :=
  if exponentField bits = 0 then fraction bits else fraction bits + hiddenBit

/-- The power of two by which a finite number scales its significand. -/
def exponent (bits : UInt64) : Int :=
  if exponentField bits = 0 then -1074 else (exponentField bits : Int) - 1075

/-- Equality of numbers: a NaN equals nothing, and the zeros are equal. -/
def equal (a b : UInt64) : Bool :=
  !isNaN a && !isNaN b && (a == b || isZero a && isZero b)

end FlatTree.Binary64
