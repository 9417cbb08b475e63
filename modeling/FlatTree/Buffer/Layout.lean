import FlatTree.Buffer.Word
import FlatTree.Buffer.Fault

/-!
# Layout of a buffer

A buffer holds a tree of expressions as a header and four regions, one after the other:

```text
header     32 bytes            argument count, expression count, 16 bytes that nobody reads
args        8 bytes per slot   the argument slots
argTypes    8 bytes per slot   the type tags of the slots
exprs      24 bytes per record head offset, first child slot, slot after the last child
strings    the rest            the text heap
```

- `Header.read`, `Header.requiredLength`: the counts and the length they ask for.
- `Regions.parse`: splits a buffer; the only check is that it is long enough.
- `Regions.argWord`, `Regions.tagWord`, `Regions.expression`, `Regions.children`: checked reads.
-/

namespace FlatTree

/-- Bytes in the header. -/
def headerSize : Nat := 32

/-- Bytes in an expression record. -/
def recordSize : Nat := 24

/-- The counts in the first half of the header. -/
structure Header where
  argCount : UInt64
  exprCount : UInt64
  deriving DecidableEq, Repr

namespace Header

/-- Reads the counts from the first 32 bytes. -/
def read (bytes : ByteArray) : Except Fault Header :=
  if bytes.size < headerSize then
    .error (.truncated headerSize bytes.size)
  else
    match wordAt? bytes 0, wordAt? bytes wordSize with
    | some argCount, some exprCount => .ok ⟨argCount, exprCount⟩
    | _, _ => .error (.truncated headerSize bytes.size)

/-- The least length of a buffer with these counts. It saturates, so absurd counts ask for more
bytes than any buffer has. -/
def requiredLength (h : Header) : UInt64 :=
  saturatingAdd (saturatingAdd 32 (saturatingMul h.argCount 16)) (saturatingMul h.exprCount 24)

end Header

/-- One record of the expression table. -/
structure Record where
  /-- Heap offset of the head. -/
  head : UInt64
  /-- First child slot. -/
  start : UInt64
  /-- The slot after the last child. -/
  stop : UInt64
  deriving DecidableEq, Repr

/-- The slots from `start` up to, but not including, `stop`. -/
structure SlotRange where
  start : Nat
  stop : Nat
  deriving DecidableEq, Repr

/-- Slots in a range; none if it is reversed. -/
def SlotRange.size (range : SlotRange) : Nat :=
  range.stop - range.start

/-- The regions of a buffer. `args` and `argTypes` are parallel: slot `i` of one describes slot `i`
of the other. -/
structure Regions where
  header : Header
  args : ByteArray
  argTypes : ByteArray
  exprs : ByteArray
  strings : ByteArray

namespace Regions

/-- Splits a buffer into its regions. It fails exactly when the buffer is shorter than its header,
or than the counts in its header ask for. -/
def parse (bytes : ByteArray) : Except Fault Regions := do
  let header ← Header.read bytes
  let required := header.requiredLength.toNat
  if bytes.size < required then
    throw (.truncated required bytes.size)
  let argBytes := (header.argCount * 8).toNat
  let exprBytes := (header.exprCount * 24).toNat
  let typesAt := headerSize + argBytes
  let exprsAt := typesAt + argBytes
  let stringsAt := exprsAt + exprBytes
  return {
    header
    args := bytes.extract headerSize typesAt
    argTypes := bytes.extract typesAt exprsAt
    exprs := bytes.extract exprsAt stringsAt
    strings := bytes.extract stringsAt bytes.size }

variable (r : Regions)

/-- Number of argument slots. -/
def argCount : Nat := r.args.size / wordSize

/-- Number of expression records. -/
def exprCount : Nat := r.exprs.size / recordSize

/-- The word of one slot in a region of slots. -/
def slotWord (region : ByteArray) (slot : Nat) : Except Fault UInt64 :=
  match wordAt? region (slot * wordSize) with
  | some w => .ok w
  | none => .error (.slotOutOfRange slot r.argCount)

/-- The value word of a slot. -/
def argWord (slot : Nat) : Except Fault UInt64 := r.slotWord r.args slot

/-- The tag word of a slot. -/
def tagWord (slot : Nat) : Except Fault UInt64 := r.slotWord r.argTypes slot

/-- The record of an expression. -/
def expression (index : Nat) : Except Fault Record :=
  let base := index * recordSize
  match wordAt? r.exprs base, wordAt? r.exprs (base + wordSize),
      wordAt? r.exprs (base + 2 * wordSize) with
  | some head, some start, some stop => .ok ⟨head, start, stop⟩
  | _, _, _ => .error (.expressionOutOfRange index r.exprCount)

/-- The child slots of an expression, which must lie among the argument slots. -/
def children (index : Nat) : Except Fault SlotRange := do
  let record ← r.expression index
  if record.stop < record.start ∨ r.argCount < record.stop.toNat then
    throw (.childrenOutOfRange index record.start.toNat record.stop.toNat r.argCount)
  return ⟨record.start.toNat, record.stop.toNat⟩

/-- The children of an expression lie in order among the argument slots. -/
theorem stop_le_of_children {r : Regions} {index : Nat} {range : SlotRange}
    (h : r.children index = .ok range) : range.start ≤ range.stop ∧ range.stop ≤ r.argCount := by
  unfold children at h
  cases hrecord : r.expression index with
  | error e => simp [hrecord, bind, Except.bind] at h
  | ok record =>
    simp only [hrecord, bind, Except.bind, pure, Except.pure, throw, throwThe,
      MonadExceptOf.throw] at h
    split at h
    · cases h
    · rename_i hrange
      cases h
      simp only [UInt64.lt_iff_toNat_lt] at hrange ⊢
      omega

end Regions

end FlatTree
