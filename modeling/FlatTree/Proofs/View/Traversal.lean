import FlatTree.View.Cursor
import FlatTree.Proofs.Buffer.Places

/-!
# What a cursor yields

A cursor is advanced step by step: it reads a slot of the block it stands in, or
goes on to the next block of a wanted type. All in all it yields the slots of
those blocks in order, up to and including the first error.

- `untilError`: a list of outcomes, cut after the first error.
- `Cursor.offered`: what one step of the walk over the blocks brings.
- `Cursor.toList_start`: a fresh cursor yields what the walk over all children
  brings, until an error.
- `Cursor.toList_start_eq_map_ok`: it yields no error exactly when all child
  slots are readable and the expressions among them exist.
-/

namespace FlatTree

/-! ## Outcomes until the first error -/

section UntilError

variable {ε α : Type}

/-- A list of outcomes up to and including the first error. -/
def untilError : List (Except ε α) → List (Except ε α)
  | [] => []
  | .ok a :: rest => .ok a :: untilError rest
  | .error e :: _ => [.error e]

@[simp] theorem untilError_nil : untilError ([] : List (Except ε α)) = [] := rfl

@[simp] theorem untilError_ok_cons {a : α} {rest : List (Except ε α)} :
    untilError (.ok a :: rest) = .ok a :: untilError rest := rfl

@[simp] theorem untilError_error_cons {e : ε} {rest : List (Except ε α)} :
    untilError (.error e :: rest) = [.error e] := rfl

/-- A list with an error is not one of successes. -/
theorem error_cons_ne_map_ok {e : ε} {rest : List (Except ε α)} {as : List α} :
    .error e :: rest ≠ as.map .ok := by
  intro h
  cases as with
  | nil => cases h
  | cons a as =>
    obtain ⟨h, -⟩ := List.cons.inj h
    cases h

/-- Nothing is added to a list that is cut. -/
theorem mem_of_mem_untilError {item : Except ε α} {items : List (Except ε α)}
    (h : item ∈ untilError items) : item ∈ items := by
  induction items with
  | nil => cases h
  | cons first rest ih =>
    cases first with
    | error e =>
      rw [untilError_error_cons, List.mem_singleton] at h
      exact h ▸ List.mem_cons_self
    | ok a =>
      rw [untilError_ok_cons] at h
      rcases List.mem_cons.mp h with rfl | h
      · exact List.mem_cons_self
      · exact List.mem_cons_of_mem _ (ih h)

/-- Nothing is cut from a list exactly when it has no error. -/
theorem untilError_eq_map_ok :
    ∀ {items : List (Except ε α)} {as : List α},
      untilError items = as.map .ok ↔ items = as.map .ok
  | [], as => Iff.rfl
  | .ok a :: rest, [] => by simp
  | .ok a :: rest, b :: bs => by
    rw [untilError_ok_cons, List.map_cons, List.cons.injEq, List.cons.injEq, untilError_eq_map_ok]
  | .error e :: rest, as => by
    rw [untilError_error_cons]
    exact iff_of_false error_cons_ne_map_ok error_cons_ne_map_ok

/-- Cutting a list looks at nothing but where the errors are. -/
theorem untilError_map {β : Type} (f : α → β) (items : List (Except ε α)) :
    untilError (items.map (f <$> ·)) = (untilError items).map (f <$> ·) := by
  induction items with
  | nil => rfl
  | cons item rest ih =>
    cases item with
    | error e => rfl
    | ok a => exact congrArg (List.cons (.ok (f a))) ih

/-- A list that is cut has one error at most, and it comes last. -/
theorem exists_untilError (items : List (Except ε α)) :
    ∃ (as : List α) (e? : Option ε),
      untilError items = as.map .ok ++ e?.toList.map .error := by
  induction items with
  | nil => exact ⟨[], none, rfl⟩
  | cons item rest ih =>
    cases item with
    | error e => exact ⟨[], some e, rfl⟩
    | ok a =>
      obtain ⟨as, e?, h⟩ := ih
      exact ⟨a :: as, e?, by simp [h]⟩

/-- Outcomes without an error are those of a list that is read as a whole. -/
theorem map_eq_map_ok {β : Type} {f : α → Except ε β} {as : List α} {bs : List β} :
    as.map f = bs.map .ok ↔ as.mapM f = .ok bs := by
  rw [mapM_eq_ok, ← List.forall₂_eq_eq_eq, List.forall₂_map_left_iff, List.forall₂_map_right_iff]

end UntilError

namespace Cursor

variable {r : Regions}

/-- A slot can be decoded when it can be read and the expression in it exists. -/
theorem decode_eq_ok {type : SlotType} {slot : Nat} {s : Slot} :
    decode r type slot = .ok s ↔
      Slot.read r type slot = .ok s ∧
        ∀ child, s = .expression child → ∃ record, r.expression child = .ok record := by
  rw [decode, bind_eq_ok]
  constructor
  · rintro ⟨read, hread, h⟩
    cases read with
    | scalar value =>
      cases h
      exact ⟨hread, fun child heq => by cases heq⟩
    | expression child =>
      obtain ⟨record, hrecord, h⟩ := bind_eq_ok.mp h
      cases h
      refine ⟨hread, fun child' heq => ?_⟩
      cases heq
      exact ⟨record, hrecord⟩
  · rintro ⟨hread, hexists⟩
    refine ⟨s, hread, ?_⟩
    cases s with
    | scalar value => rfl
    | expression child =>
      obtain ⟨record, hrecord⟩ := hexists child rfl
      show (r.expression child >>= _) = _
      rw [hrecord]
      rfl

/-- The outcomes of the slots of a block. -/
def blockItems (r : Regions) (parent : Nat) (block : Block) : List (Decoded Slot) :=
  block.slots.toList.map fun slot =>
    Decoded.blaming parent (Decoded.lift (decode r block.type slot))

/-- What a step of the walk brings: the slots of a wanted block, or the fault. -/
def offered (r : Regions) (parent : Nat) (wanted : Option SlotType) :
    Except Fault Block → List (Decoded Slot)
  | .error fault => [Decoded.blaming parent (.error (.ofFault fault))]
  | .ok block => if wanted.all (· == block.type) then blockItems r parent block else []

/-- What is left of a block and of the walk after it. -/
def offeredFrom (r : Regions) (parent : Nat) (wanted : Option SlotType) (block : Block)
    (blocks : Blocks) : List (Decoded Slot) :=
  blockItems r parent block ++ (blocks.toList r).flatMap (offered r parent wanted)

theorem blockItems_of_le {parent : Nat} {block : Block}
    (h : block.slots.stop ≤ block.slots.start) : blockItems r parent block = [] := by
  rw [blockItems, SlotRange.toList, show block.slots.size = 0 from Nat.sub_eq_zero_of_le h]
  rfl

theorem blockItems_of_lt {parent : Nat} {block : Block}
    (h : block.slots.start < block.slots.stop) :
    blockItems r parent block =
      Decoded.blaming parent (Decoded.lift (decode r block.type block.slots.start)) ::
        blockItems r parent ⟨block.type, ⟨block.slots.start + 1, block.slots.stop⟩⟩ := by
  have hsize : block.slots.size =
      (SlotRange.mk (block.slots.start + 1) block.slots.stop).size + 1 := by
    simp only [SlotRange.size]
    omega
  rw [blockItems, SlotRange.toList, hsize, List.range'_succ, List.map_cons]
  rfl

/-! ## Going on to the next block -/

/-- A walk without another wanted block brings nothing. -/
theorem flatMap_offered_of_none {parent : Nat} {wanted : Option SlotType} {blocks : Blocks}
    (h : nextBlock r wanted blocks = none) :
    (blocks.toList r).flatMap (offered r parent wanted) = [] := by
  fun_induction nextBlock r wanted blocks with
  | case1 blocks hnext =>
    rw [Blocks.toList_of_none hnext]
    rfl
  | case2 => cases h
  | case3 => cases h
  | case4 blocks block rest hnext hwanted ih =>
    -- A block of another type is passed over, and brings nothing itself.
    rw [Blocks.toList_of_some hnext, List.flatMap_cons, ih h, offered, if_neg hwanted]
    rfl

/-- What comes before another wanted block brings nothing, so the next block of
a wanted type, or the fault before it, is what the walk brings first. -/
theorem flatMap_offered_of_some {parent : Nat} {wanted : Option SlotType} {blocks rest : Blocks}
    {item : Except Fault Block} (h : nextBlock r wanted blocks = some (item, rest)) :
    (blocks.toList r).flatMap (offered r parent wanted) =
      offered r parent none item ++ (rest.toList r).flatMap (offered r parent wanted) := by
  fun_induction nextBlock r wanted blocks with
  | case1 => cases h
  | case2 blocks fault rest hnext =>
    cases h
    rw [Blocks.toList_of_some hnext, List.flatMap_cons]
    rfl
  | case3 blocks block rest hnext hwanted =>
    cases h
    rw [Blocks.toList_of_some hnext, List.flatMap_cons, offered, if_pos hwanted]
    rfl
  | case4 blocks block rest hnext hwanted ih =>
    rw [Blocks.toList_of_some hnext, List.flatMap_cons, ih h, offered, if_neg hwanted]
    rfl

/-! ## Everything a cursor yields -/

theorem toList_of_none {c : Cursor} (h : c.next r = none) : c.toList r = [] := by
  rw [toList]
  split
  · rfl
  · next heq =>
    rw [h] at heq
    cases heq

theorem toList_of_some {c rest : Cursor} {item : Decoded Slot}
    (h : c.next r = some (item, rest)) : c.toList r = item :: rest.toList r := by
  rw [toList]
  split
  · next heq =>
    rw [h] at heq
    cases heq
  · next heq =>
    rw [h] at heq
    cases heq
    rfl

theorem nextBlock_done {wanted : Option SlotType} : nextBlock r wanted Blocks.done = none := by
  rw [nextBlock]
  split
  · rfl
  · next heq => cases heq
  · next heq => cases heq

/-- After an error nothing more is yielded. -/
theorem toList_fuse (c : Cursor) : c.fuse.toList r = [] := by
  refine toList_of_none ?_
  have hempty : ¬ c.fuse.current.slots.start < c.fuse.current.slots.stop := Nat.lt_irrefl 0
  have hpending : c.fuse.pending = none := rfl
  have hblock : nextBlock r c.fuse.wanted c.fuse.blocks = none := nextBlock_done
  simp only [next, if_neg hempty, hpending, hblock]

/-- A cursor without a pending error yields what is left of its block and of the
walk after it, until an error. -/
theorem toList_eq_untilError {c : Cursor} (hpending : c.pending = none) :
    c.toList r = untilError (offeredFrom r c.parent c.wanted c.current c.blocks) := by
  -- A step either reads a slot of the current block, or takes the next block
  -- and reads a slot of that; only the block differs.
  have hslot : ∀ (block : Block) (blocks : Blocks),
      block.slots.start < block.slots.stop →
      c.next r = some (yieldSlot r c block blocks) →
      c.toList r = untilError (offeredFrom r c.parent c.wanted block blocks) := by
    intro block blocks hlt hnext
    rw [offeredFrom, blockItems_of_lt hlt, List.cons_append]
    cases hread : decode r block.type block.slots.start with
    | error fault =>
      rw [yieldSlot, hread] at hnext
      rw [toList_of_some hnext, toList_fuse]
      rfl
    | ok value =>
      rw [yieldSlot, hread] at hnext
      have hless := remaining_lt_of_next r hnext
      rw [toList_of_some hnext]
      have ih := toList_eq_untilError (c := { c with
        current := ⟨block.type, ⟨block.slots.start + 1, block.slots.stop⟩⟩, blocks }) hpending
      rw [ih]
      rfl
  by_cases hcurrent : c.current.slots.start < c.current.slots.stop
  · exact hslot _ _ hcurrent (by rw [next, if_pos hcurrent])
  · -- Nothing is left of the current block, so what the walk brings comes first.
    rw [offeredFrom, blockItems_of_le (Nat.le_of_not_lt hcurrent), List.nil_append]
    cases hblock : nextBlock r c.wanted c.blocks with
    | none =>
      have hnext : c.next r = none := by
        simp only [next, if_neg hcurrent, hpending, hblock]
      rw [toList_of_none hnext, flatMap_offered_of_none hblock]
      rfl
    | some found =>
      obtain ⟨item, rest⟩ := found
      rw [flatMap_offered_of_some hblock]
      cases item with
      | error fault =>
        have hnext : c.next r =
            some (Decoded.blaming c.parent (.error (.ofFault fault)), c.fuse) := by
          simp only [next, if_neg hcurrent, hpending, hblock]
        rw [toList_of_some hnext, toList_fuse]
        rfl
      | ok block =>
        have hnext : c.next r = some (yieldSlot r c block rest) := by
          simp only [next, if_neg hcurrent, hpending, hblock]
        -- No block is empty, so the next one has a slot to yield.
        have hsize := (size_le_of_nextBlock r hblock).2
        simp only [SlotRange.size] at hsize
        exact hslot block rest (by omega) hnext
termination_by c.remaining

/-- A fresh cursor yields what the walk over all children brings, until an
error. -/
theorem toList_start {parent : Nat} {wanted : Option SlotType} {range : SlotRange}
    (h : r.children parent = .ok range) :
    (start r parent wanted).toList r =
      untilError (((Blocks.ofRange range).toList r).flatMap (offered r parent wanted)) := by
  rw [start, h, toList_eq_untilError rfl]
  rfl

/-- Of an expression with an invalid child range a cursor yields that error. -/
theorem toList_start_error {parent : Nat} {wanted : Option SlotType} {fault : Fault}
    (h : r.children parent = .error fault) :
    (start r parent wanted).toList r = [Decoded.blaming parent (.error (.ofFault fault))] := by
  rw [start, h]
  have hnext : next r ⟨parent, wanted, noBlock, Blocks.done, some fault⟩ =
      some (Decoded.blaming parent (.error (.ofFault fault)),
        fuse ⟨parent, wanted, noBlock, Blocks.done, some fault⟩) := rfl
  rw [toList_of_some hnext, toList_fuse]

/-! ## Children without an error -/

theorem blockItems_eq_map_ok {parent : Nat} {block : Block} {held : List Slot} :
    blockItems r parent block = held.map .ok ↔
      r.blockSlots block = .ok held ∧
        ∀ child, .expression child ∈ held → ∃ record, r.expression child = .ok record := by
  rw [blockItems, map_eq_map_ok, Regions.blockSlots, mapM_eq_ok, mapM_eq_ok]
  -- Which places these are does not matter, only that they are read one by one.
  generalize block.slots.toList = places
  constructor
  · intro h
    induction h with
    | nil => exact ⟨.nil, fun child hmem => by cases hmem⟩
    | cons hread _ ih =>
      obtain ⟨hslot, hexists⟩ := decode_eq_ok.mp
        (Decoded.lift_eq_ok.mp (Decoded.blaming_eq_ok.mp hread))
      obtain ⟨hslots, hall⟩ := ih
      refine ⟨.cons hslot hslots, fun child hmem => ?_⟩
      rcases List.mem_cons.mp hmem with heq | hmem
      · exact hexists child heq.symm
      · exact hall child hmem
  · rintro ⟨h, hexists⟩
    induction h with
    | nil => exact .nil
    | cons hslot _ ih =>
      refine .cons ?_ (ih fun child hmem => hexists child (List.mem_cons_of_mem _ hmem))
      rw [Decoded.blaming_eq_ok, Decoded.lift_eq_ok, decode_eq_ok]
      refine ⟨hslot, fun child heq => hexists child ?_⟩
      rw [heq]
      exact List.mem_cons_self

theorem flatMap_offered_eq_map_ok {parent : Nat} :
    ∀ {items : List (Except Fault Block)} {held : List Slot},
      items.flatMap (offered r parent none) = held.map .ok ↔
        r.walkSlots items = .ok held ∧
          ∀ child, .expression child ∈ held → ∃ record, r.expression child = .ok record
  | [], held => by
    rw [Regions.walkSlots, pure_eq_ok]
    cases held <;> simp
  | .error fault :: rest, held => by
    rw [Regions.walkSlots_cons]
    refine iff_of_false error_cons_ne_map_ok ?_
    rintro ⟨⟨_, _, _, h, -⟩, -⟩
    cases h
  | .ok block :: rest, held => by
    rw [Regions.walkSlots_cons, List.flatMap_cons,
      show offered r parent none (.ok block) = blockItems r parent block from rfl]
    constructor
    · intro h
      obtain ⟨first, others, rfl, hfirst, hothers⟩ := List.map_eq_append_iff.mp h.symm
      obtain ⟨hslots, hexists⟩ := blockItems_eq_map_ok.mp hfirst.symm
      obtain ⟨hwalk, hexists'⟩ := flatMap_offered_eq_map_ok.mp hothers.symm
      refine ⟨⟨block, first, others, rfl, hslots, hwalk, rfl⟩, fun child hmem => ?_⟩
      rcases List.mem_append.mp hmem with hmem | hmem
      · exact hexists child hmem
      · exact hexists' child hmem
    · rintro ⟨⟨_, first, others, heq, hslots, hwalk, rfl⟩, hexists⟩
      cases heq
      rw [List.map_append,
        blockItems_eq_map_ok.mpr
          ⟨hslots, fun child hmem => hexists child (List.mem_append_left _ hmem)⟩,
        flatMap_offered_eq_map_ok.mpr
          ⟨hwalk, fun child hmem => hexists child (List.mem_append_right _ hmem)⟩]

/-- A fresh cursor over all children meets no error exactly when every child
slot is readable and the expressions among them exist. -/
theorem toList_start_eq_map_ok {parent : Nat} {held : List Slot} :
    (start r parent none).toList r = held.map .ok ↔
      r.childSlots parent = .ok held ∧
        ∀ child, .expression child ∈ held → ∃ record, r.expression child = .ok record := by
  rw [Regions.childSlots_eq_ok]
  cases hrange : r.children parent with
  | error fault =>
    rw [toList_start_error hrange]
    refine iff_of_false error_cons_ne_map_ok ?_
    rintro ⟨⟨_, h, -⟩, -⟩
    cases h
  | ok range =>
    rw [toList_start hrange, untilError_eq_map_ok, flatMap_offered_eq_map_ok]
    constructor
    · rintro ⟨hwalk, hexists⟩
      exact ⟨⟨range, rfl, hwalk⟩, hexists⟩
    · rintro ⟨⟨_, heq, hwalk⟩, hexists⟩
      cases heq
      exact ⟨hwalk, hexists⟩

end Cursor

end FlatTree
