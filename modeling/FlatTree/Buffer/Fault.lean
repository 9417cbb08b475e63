/-!
# Faults of a buffer

The ways in which the bytes of a buffer can break the layout. Every read is checked, so a corrupt
or hostile buffer ends in one of these causes, each with the slot, offset or index where the read
failed. `Fault.message` is the only place that words them.
-/

namespace FlatTree

/-- Why a run of equal slot types cannot be honoured. -/
inductive RunFault where
  /-- The run starts on the last slot, which leaves no place for its length. -/
  | noLengthWord
  /-- The run covers fewer slots than its own two tag words. -/
  | tooShort
  /-- The run covers slots past the children of its expression. -/
  | pastChildren
  deriving DecidableEq, Repr

/-- The reason as it is printed. -/
def RunFault.message : RunFault → String
  | noLengthWord => "run length word lies past the argument types"
  | tooShort => "run shorter than two slots"
  | pastChildren => "run extends past the expression's child range"

/-- A way in which the bytes of a buffer break the layout. -/
inductive Fault where
  /-- The buffer is shorter than its header, or than the counts in its header ask for. -/
  | truncated (required actual : Nat)
  /-- A tag names no slot type. -/
  | unknownTag (slot : Nat) (value : UInt64)
  /-- The text at a heap offset is not valid UTF-8. -/
  | invalidText (offset : Nat)
  | slotOutOfRange (slot count : Nat)
  | expressionOutOfRange (index count : Nat)
  /-- A text offset lies past the end of the heap. -/
  | textOutOfRange (offset length : Nat)
  /-- The children of an expression are reversed or lie past the argument slots. -/
  | childrenOutOfRange (index start stop count : Nat)
  /-- A run of slots starts at `slot` but cannot be honoured. -/
  | malformedRun (slot : Nat) (reason : RunFault)
  deriving DecidableEq, Repr

/-- A word in lower-case hexadecimal after `0x`. -/
def hexWord (w : UInt64) : String :=
  "0x" ++ String.ofList (Nat.toDigits 16 w.toNat)

/-- The fault as it is printed. -/
def Fault.message : Fault → String
  | truncated required actual =>
    s!"truncated buffer: header implies {required} bytes, buffer has {actual}"
  | unknownTag slot value => s!"unknown type tag {hexWord value} at slot {slot}"
  | invalidText offset => s!"invalid UTF-8 in string heap at offset {offset}"
  | slotOutOfRange slot count => s!"argument slot {slot} out of range ({count} slots)"
  | expressionOutOfRange index count =>
    s!"expression {index} out of range ({count} expressions)"
  | textOutOfRange offset length => s!"string offset {offset} past end of heap ({length} bytes)"
  | childrenOutOfRange index start stop count =>
    s!"expression {index} child range {start}..{stop} exceeds {count} argument slots"
  | malformedRun slot reason => s!"malformed run at slot {slot}: {reason.message}"

end FlatTree
