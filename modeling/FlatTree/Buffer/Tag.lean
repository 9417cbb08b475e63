import FlatTree.Buffer.Layout
import FlatTree.Buffer.SlotType

/-!
# Type tags

A tag says which type one slot has, or that a whole run of slots shares one type. A single tag is
a word equal to a type code. A run takes two tag words: the first has bit 7 set over the type code,
the second holds the length of the run in its low 32 bits. The tag words of the further slots of a
run are not read.

- `Tag.read r slot`: the tag that starts at a slot.
- `Blocks.next`: one step of a walk over a range of slots, tag by tag.
- `Blocks.toList`: the whole walk. It stops after the first fault.
-/

namespace FlatTree

/-- The type of one slot, or of a run of slots. -/
inductive Tag where
  | single (type : SlotType)
  | run (type : SlotType) (length : Nat)
  deriving DecidableEq, Repr

namespace Tag

/-- Set in a tag word that starts a run. -/
def runBit : UInt64 := 0x80

/-- The bits of such a word that hold the type code. -/
def typeMask : UInt64 := 0x7F

/-- The bits of the next tag word that hold the length of the run. -/
def lengthMask : UInt64 := 0xFFFFFFFF

/-- The type of the slots under a tag. -/
def type : Tag → SlotType
  | single t => t
  | run t _ => t

/-- How many slots a tag covers. -/
def span : Tag → Nat
  | single _ => 1
  | run _ length => length

/-- The tag that starts at `slot`. -/
def read (r : Regions) (slot : Nat) : Except Fault Tag := do
  let word ← r.tagWord slot
  if word &&& runBit = 0 then
    match SlotType.ofCode? word with
    | some t => return single t
    | none => throw (.unknownTag slot word)
  else
    let code := word &&& typeMask
    match SlotType.ofCode? code with
    | none => throw (.unknownTag slot code)
    | some t =>
      match r.tagWord (slot + 1) with
      | .error _ => throw (.malformedRun slot .noLengthWord)
      | .ok lengthWord =>
        let length := (lengthWord &&& lengthMask).toNat
        if length < 2 then
          throw (.malformedRun slot .tooShort)
        return run t length

/-- A tag that was read covers at least the slot it starts at. -/
theorem span_pos_of_read {r : Regions} {slot : Nat} {tag : Tag}
    (h : read r slot = .ok tag) : 0 < tag.span := by
  unfold read at h
  cases hw : r.tagWord slot with
  | error e => simp [hw, bind, Except.bind] at h
  | ok word =>
    simp only [hw, bind, Except.bind, pure, Except.pure, throw, throwThe, MonadExceptOf.throw] at h
    split at h
    · split at h
      · cases h; exact Nat.one_pos
      · cases h
    · split at h
      · cases h
      · split at h
        · cases h
        · split at h
          · cases h
          · rename_i hlen
            cases h
            simp only [span]
            omega

end Tag

/-- A stretch of slots of one type: a single slot or a whole run. -/
structure Block where
  type : SlotType
  slots : SlotRange
  deriving DecidableEq, Repr

/-- A walk over slots, tag by tag: the slots that no block has covered yet. -/
structure Blocks where
  cursor : Nat
  stop : Nat
  deriving DecidableEq, Repr

namespace Blocks

/-- The walk over a range. -/
def ofRange (range : SlotRange) : Blocks := ⟨range.start, range.stop⟩

/-- The walk with nothing left. -/
def done : Blocks := ⟨0, 0⟩

/-- The slots not yet covered. -/
def remaining (b : Blocks) : SlotRange := ⟨b.cursor, b.stop⟩

/-- The next block, or the fault that ends the walk, with the walk after it. -/
def next (r : Regions) (b : Blocks) : Option (Except Fault Block × Blocks) :=
  if b.stop ≤ b.cursor then
    none
  else
    match Tag.read r b.cursor with
    | .error fault => some (.error fault, ⟨b.stop, b.stop⟩)
    | .ok tag =>
      if b.cursor + tag.span ≤ b.stop then
        some (.ok ⟨tag.type, ⟨b.cursor, b.cursor + tag.span⟩⟩, ⟨b.cursor + tag.span, b.stop⟩)
      else
        some (.error (.malformedRun b.cursor .pastChildren), ⟨b.stop, b.stop⟩)

/-- Each step leaves fewer slots. -/
theorem remaining_lt_of_next {r : Regions} {b b' : Blocks} {item : Except Fault Block}
    (h : b.next r = some (item, b')) : b'.remaining.size < b.remaining.size := by
  unfold next at h
  split at h
  · cases h
  · rename_i hlt
    split at h
    · cases h
      simp only [remaining, SlotRange.size]
      omega
    · rename_i tag htag
      have hpos := Tag.span_pos_of_read htag
      split at h
      · cases h
        simp only [remaining, SlotRange.size]
        omega
      · cases h
        simp only [remaining, SlotRange.size]
        omega

/-- A block starts where the walk stands, holds a slot at least, and ends where the walk goes on. -/
theorem block_of_next {r : Regions} {b b' : Blocks} {block : Block}
    (h : b.next r = some (.ok block, b')) :
    block.slots = ⟨b.cursor, b'.cursor⟩ ∧ b.cursor < b'.cursor ∧ b'.cursor ≤ b'.stop ∧
      b'.stop = b.stop := by
  unfold next at h
  split at h
  · cases h
  · split at h
    · cases h
    · rename_i tag htag
      have hpos := Tag.span_pos_of_read htag
      split at h
      · cases h
        refine ⟨rfl, ?_, ?_, rfl⟩ <;> simp only <;> omega
      · cases h

/-- Everything the walk yields: blocks, and after them at most one fault. -/
def toList (r : Regions) (b : Blocks) : List (Except Fault Block) :=
  match _h : b.next r with
  | none => []
  | some (item, rest) => item :: toList r rest
termination_by b.remaining.size
decreasing_by exact remaining_lt_of_next _h

end Blocks

end FlatTree
