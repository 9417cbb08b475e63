import Mathlib.Data.List.Forall2
import FlatTree.Proofs.Buffer.Reference

/-!
# Slots in their places

A walk hands out slots block by block. How they are cut into blocks is a matter
of the tags, and says nothing about what the slots hold: for that only the place
of each slot and its type count.

- `Block.places`: the slots of a block, each with its type.
- `Regions.Expands`: a walk over a range meets no fault, and these are its places.
- `Regions.walkSlots_map_ok`: reading blocks is reading all their places.
-/

namespace FlatTree

/-- The slots of a block, each with the type it has. -/
def Block.places (block : Block) : List (SlotType × Nat) :=
  block.slots.toList.map fun slot => (block.type, slot)

@[simp] theorem Block.length_places (block : Block) : block.places.length = block.slots.size := by
  simp [places, SlotRange.toList]

@[simp] theorem Block.map_snd_places (block : Block) :
    block.places.map Prod.snd = block.slots.toList := by
  rw [places, List.map_map]
  exact List.map_id _

/-- A block with a first slot has a first place. -/
theorem Block.exists_places_eq_cons {block : Block}
    (h : block.slots.start < block.slots.stop) :
    ∃ rest, block.places = (block.type, block.slots.start) :: rest := by
  obtain ⟨others, hothers⟩ := SlotRange.toList_eq_cons h
  exact ⟨others.map fun slot => (block.type, slot), by rw [places, hothers, List.map_cons]⟩

namespace Regions

variable {r : Regions}

/-- A walk over a range meets no fault, and expands to these slots with these
types. -/
def Expands (r : Regions) (range : SlotRange) (places : List (SlotType × Nat)) : Prop :=
  ∃ blocks : List Block, (Blocks.ofRange range).toList r = blocks.map .ok ∧
    blocks.flatMap Block.places = places

/-- There is one way to expand a walk. -/
theorem Expands.unique {range : SlotRange} {places others : List (SlotType × Nat)}
    (h : r.Expands range places) (hothers : r.Expands range others) : places = others := by
  obtain ⟨blocks, hblocks, rfl⟩ := h
  obtain ⟨blocks', hblocks', rfl⟩ := hothers
  rw [hblocks] at hblocks'
  rw [map_ok_inj.mp hblocks']

theorem blockSlots_eq_mapM (block : Block) :
    r.blockSlots block = block.places.mapM fun place => Slot.read r place.1 place.2 := by
  rw [Block.places, List.mapM_map]
  rfl

/-- Reading blocks is reading all their places. -/
theorem walkSlots_map_ok (blocks : List Block) :
    r.walkSlots (blocks.map .ok) =
      (blocks.flatMap Block.places).mapM fun place => Slot.read r place.1 place.2 := by
  induction blocks with
  | nil => rfl
  | cons block rest ih =>
    rw [List.map_cons, List.flatMap_cons, List.mapM_append, ← blockSlots_eq_mapM, ← ih]
    rfl

/-- Nothing is read of a walk that meets a fault. -/
theorem exists_blocks_of_walkSlots :
    ∀ {items : List (Except Fault Block)} {held : List Slot}, r.walkSlots items = .ok held →
      ∃ blocks : List Block, items = blocks.map .ok
  | [], _, _ => ⟨[], rfl⟩
  | item :: rest, _, h => by
    obtain ⟨block, _, _, rfl, -, hothers, -⟩ := walkSlots_cons.mp h
    obtain ⟨blocks, rfl⟩ := exists_blocks_of_walkSlots hothers
    exact ⟨block :: blocks, rfl⟩

/-- What the child slots of an expression hold is read place by place. -/
theorem exists_expands_of_childSlots {index : Nat} {held : List Slot}
    (h : r.childSlots index = .ok held) :
    ∃ range places, r.children index = .ok range ∧ r.Expands range places ∧
      List.Forall₂ (fun place s => Slot.read r place.1 place.2 = .ok s) places held := by
  obtain ⟨range, hrange, hwalk⟩ := childSlots_eq_ok.mp h
  obtain ⟨blocks, hblocks⟩ := exists_blocks_of_walkSlots hwalk
  rw [hblocks, walkSlots_map_ok, mapM_eq_ok] at hwalk
  exact ⟨range, _, hrange, ⟨blocks, hblocks, rfl⟩, hwalk⟩

end Regions

end FlatTree
