import FlatTree.Decode.Promotion

/-!
# Cursors over children

A cursor yields the children of one expression in slot order, one at a time. It holds the block
being expanded and the walk over the blocks after it. With a wanted type it steps over blocks of
other types by their tags alone, so that their value slots are never read. After the first error it
yields nothing more.

- `Cursor.start`: the cursor at the first child.
- `Cursor.next`: the next child, or the error that ends the cursor, with the cursor after it.
- `Cursor.toList`: everything a cursor yields.
-/

namespace FlatTree

/-- Where a traversal of the children of `parent` stands. -/
structure Cursor where
  parent : Nat
  /-- The only type to yield, if one is wanted. -/
  wanted : Option SlotType
  /-- The block being expanded, less the slots already yielded. -/
  current : Block
  /-- The walk over the blocks after it. -/
  blocks : Blocks
  /-- The error of an invalid child range, until it is yielded. -/
  pending : Option Fault
  deriving Repr

namespace Cursor

variable (r : Regions)

/-- A block without slots. -/
def noBlock : Block := ⟨.bool, ⟨0, 0⟩⟩

/-- The cursor at the first child of an expression. An invalid child range is its first item. -/
def start (parent : Nat) (wanted : Option SlotType) : Cursor :=
  match r.children parent with
  | .ok range => ⟨parent, wanted, noBlock, Blocks.ofRange range, none⟩
  | .error fault => ⟨parent, wanted, noBlock, Blocks.done, some fault⟩

/-- The cursor that yields nothing more. -/
def fuse (c : Cursor) : Cursor :=
  { c with current := noBlock, blocks := Blocks.done, pending := none }

/-- The next block of a wanted type, or the fault before it, with the walk after it. -/
def nextBlock (wanted : Option SlotType) (blocks : Blocks) :
    Option (Except Fault Block × Blocks) :=
  match _h : blocks.next r with
  | none => none
  | some (.error fault, rest) => some (.error fault, rest)
  | some (.ok block, rest) =>
    if wanted.all (· == block.type) then some (.ok block, rest) else nextBlock wanted rest
termination_by blocks.remaining.size
decreasing_by exact Blocks.remaining_lt_of_next _h

/-- Reads a slot. An expression must exist. -/
def decode (type : SlotType) (slot : Nat) : Except Fault Slot := do
  let value ← Slot.read r type slot
  if let .expression index := value then
    let _ ← r.expression index
  return value

/-- Yields the first slot of a block and goes on with the rest of it. -/
def yieldSlot (c : Cursor) (block : Block) (blocks : Blocks) : Decoded Slot × Cursor :=
  match decode r block.type block.slots.start with
  | .ok value =>
    (.ok value,
      { c with current := ⟨block.type, ⟨block.slots.start + 1, block.slots.stop⟩⟩, blocks })
  | .error fault => (Decoded.blaming c.parent (.error (.ofFault fault)), c.fuse)

/-- The next child, or the error that ends the cursor, with the cursor after it. -/
def next (c : Cursor) : Option (Decoded Slot × Cursor) :=
  if c.current.slots.start < c.current.slots.stop then
    some (yieldSlot r c c.current c.blocks)
  else
    match c.pending with
    | some fault => some (Decoded.blaming c.parent (.error (.ofFault fault)), c.fuse)
    | none =>
      match nextBlock r c.wanted c.blocks with
      | none => none
      | some (.error fault, _) =>
        some (Decoded.blaming c.parent (.error (.ofFault fault)), c.fuse)
      | some (.ok block, rest) => some (yieldSlot r c block rest)

/-! ## A cursor ends -/

/-- Slots that the cursor may still yield, counting a pending error as one. -/
def remaining (c : Cursor) : Nat :=
  c.current.slots.size + c.blocks.remaining.size + (if c.pending.isSome then 1 else 0)

/-- A walk that yields anything has slots left. -/
theorem remaining_pos_of_nextBlock {wanted : Option SlotType} {blocks rest : Blocks}
    {item : Except Fault Block} (h : nextBlock r wanted blocks = some (item, rest)) :
    0 < blocks.remaining.size := by
  unfold nextBlock at h
  split at h
  · cases h
  all_goals
    rename_i hnext
    have := Blocks.remaining_lt_of_next hnext
    omega

/-- A block of a wanted type is not empty, and it is taken from what was left. -/
theorem size_le_of_nextBlock {wanted : Option SlotType} {blocks rest : Blocks} {block : Block}
    (h : nextBlock r wanted blocks = some (.ok block, rest)) :
    block.slots.size + rest.remaining.size ≤ blocks.remaining.size ∧ 0 < block.slots.size := by
  fun_induction nextBlock r wanted blocks with
  | case1 => cases h
  | case2 => cases h
  | case3 blocks block' rest' hnext hwanted =>
    cases h
    obtain ⟨hslots, hlt, hle, hstop⟩ := Blocks.block_of_next hnext
    simp only [hslots, SlotRange.size, Blocks.remaining]
    omega
  | case4 blocks block' rest' hnext hwanted ih =>
    have hlt := Blocks.remaining_lt_of_next hnext
    have := ih h
    omega

@[simp] theorem remaining_fuse (c : Cursor) : c.fuse.remaining = 0 := rfl

/-- Yielding a slot of a block leaves less than the block and the walk after it. -/
theorem remaining_yieldSlot_lt (c : Cursor) (block : Block) (blocks : Blocks)
    (h : 0 < block.slots.size) :
    (yieldSlot r c block blocks).2.remaining <
      block.slots.size + blocks.remaining.size + (if c.pending.isSome then 1 else 0) := by
  unfold yieldSlot
  simp only [SlotRange.size] at h
  split
  · simp only [remaining, SlotRange.size]
    omega
  · simp only [remaining_fuse, SlotRange.size]
    omega

/-- Each step leaves fewer slots. -/
theorem remaining_lt_of_next {c c' : Cursor} {item : Decoded Slot}
    (h : c.next r = some (item, c')) : c'.remaining < c.remaining := by
  unfold next at h
  split at h
  · rename_i hlt
    have hsize : 0 < c.current.slots.size := by simp only [SlotRange.size]; omega
    have := remaining_yieldSlot_lt r c c.current c.blocks hsize
    simp only [Option.some.injEq] at h
    rw [h] at this
    exact this
  · split at h
    · rename_i hpending
      cases h
      rw [remaining_fuse]
      simp only [remaining, hpending, Option.isSome_some, if_true]
      omega
    · rename_i hlt hpending
      split at h
      · cases h
      · rename_i hnext
        cases h
        have : 0 < c.blocks.remaining.size := remaining_pos_of_nextBlock r hnext
        rw [remaining_fuse]
        simp only [remaining]
        omega
      · rename_i block rest hnext
        obtain ⟨hle, hpos⟩ := size_le_of_nextBlock r hnext
        have := remaining_yieldSlot_lt r c block rest hpos
        simp only [Option.some.injEq] at h
        rw [h] at this
        simp only [remaining] at *
        omega

/-- Everything a cursor yields, in order. -/
def toList (c : Cursor) : List (Decoded Slot) :=
  match _h : c.next r with
  | none => []
  | some (item, rest) => item :: toList rest
termination_by c.remaining
decreasing_by exact remaining_lt_of_next r _h

/-- A fresh cursor over all children has at most every argument slot, or one error, to yield. -/
theorem remaining_start_le (parent : Nat) (wanted : Option SlotType) :
    (start r parent wanted).remaining ≤ r.argCount + 1 := by
  unfold start
  split
  · rename_i range hrange
    have := Regions.stop_le_of_children hrange
    simp only [remaining, noBlock, SlotRange.size, Blocks.remaining, Blocks.ofRange,
      Option.isSome_none, Bool.false_eq_true, if_false]
    omega
  · simp only [remaining, noBlock, SlotRange.size, Blocks.remaining, Blocks.done,
      Option.isSome_some, if_true]
    omega

end Cursor

end FlatTree
