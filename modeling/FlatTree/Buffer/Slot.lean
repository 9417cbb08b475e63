import FlatTree.Buffer.Tag
import FlatTree.Buffer.Heap

/-!
# Slots

The value of one argument slot under its type. A scalar is complete in itself; an expression is
only an index into the expression table, to be followed by whoever needs the subtree. Doubles are
kept as the 64 bits of the slot, so that no payload of a NaN is lost.

- `Scalar`, `Slot`: what a slot can hold.
- `Slot.read r type slot`: the slot under a type.
-/

namespace FlatTree

/-- A value without children. -/
inductive Scalar where
  | bool (value : Bool)
  | long (word : UInt64)
  /-- A binary64 number, by its bits. -/
  | double (bits : UInt64)
  | string (text : String)
  /-- An interned name. It is stored like a string and differs only in its tag. -/
  | symbol (name : String)
  deriving DecidableEq, Repr

/-- The type of the slots that hold such a scalar. -/
def Scalar.type : Scalar → SlotType
  | bool _ => .bool
  | long _ => .long
  | double _ => .double
  | string _ => .string
  | symbol _ => .symbol

/-- What a slot holds. -/
inductive Slot where
  | scalar (value : Scalar)
  | expression (index : Nat)
  deriving DecidableEq, Repr

namespace Slot

/-- The type under which a slot holds this. -/
def type : Slot → SlotType
  | scalar value => value.type
  | expression _ => .expression

/-- What `slot` holds under a type. -/
def read (r : Regions) (type : SlotType) (slot : Nat) : Except Fault Slot := do
  let word ← r.argWord slot
  match type with
  | .bool => return scalar (.bool (word &&& 0xFF != 0))
  | .long => return scalar (.long word)
  | .double => return scalar (.double word)
  | .string => return scalar (.string (← Heap.textAt r.strings word.toNat))
  | .symbol => return scalar (.symbol (← Heap.textAt r.strings word.toNat))
  | .expression => return expression word.toNat

end Slot

end FlatTree
