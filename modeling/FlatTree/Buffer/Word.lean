/-!
# Words in a byte array

Everything a buffer stores outside its text heap is a 64-bit word, low byte first.

- `wordAt? bytes i`: the word held by the eight bytes from `i`, or nothing if one is missing.
- `wordBytes w`: the eight bytes that hold `w`.
- `saturatingAdd`, `saturatingMul`: sums and products that stay at the largest word instead of
  wrapping, so that a length computed from hostile counts is too large rather than too small.
-/

namespace FlatTree

/-- Bytes in a word. -/
def wordSize : Nat := 8

/-- The value of the `n` bytes from `i`, low byte first. A byte past the end counts as zero. -/
def littleEndian (bytes : ByteArray) (i : Nat) : Nat → UInt64
  | 0 => 0
  | n + 1 => (bytes[i]?.getD 0).toUInt64 + 256 * littleEndian bytes (i + 1) n

/-- The word held by the eight bytes from `i`, if all eight exist. -/
def wordAt? (bytes : ByteArray) (i : Nat) : Option UInt64 :=
  if i + wordSize ≤ bytes.size then some (littleEndian bytes i wordSize) else none

/-- The `n` lowest bytes of `w`, low byte first. -/
def littleEndianBytes : Nat → UInt64 → List UInt8
  | 0, _ => []
  | n + 1, w => w.toUInt8 :: littleEndianBytes n (w / 256)

/-- The eight bytes that hold `w`. -/
def wordBytes (w : UInt64) : List UInt8 :=
  littleEndianBytes wordSize w

/-- The largest word. -/
def maxWord : UInt64 := 0xFFFFFFFFFFFFFFFF

/-- The sum of two words, or the largest word if the sum is larger. -/
def saturatingAdd (a b : UInt64) : UInt64 :=
  if a.toNat + b.toNat ≤ maxWord.toNat then a + b else maxWord

/-- The product of two words, or the largest word if the product is larger. -/
def saturatingMul (a b : UInt64) : UInt64 :=
  if a.toNat * b.toNat ≤ maxWord.toNat then a * b else maxWord

@[simp] theorem length_littleEndianBytes (n : Nat) (w : UInt64) :
    (littleEndianBytes n w).length = n := by
  induction n generalizing w with
  | zero => rfl
  | succ n ih => simp [littleEndianBytes, ih]

@[simp] theorem length_wordBytes (w : UInt64) : (wordBytes w).length = wordSize :=
  length_littleEndianBytes _ w

end FlatTree
