import FlatTree.Proofs.Decode.Bisimulation

/-!
# Walks with their fault

A walk over child slots that meets a fault still brings the slots before it, and a decoder
reads these before it fails. What is read is one list, of places and at most one fault,
and decoding the children of an expression is a map over that list. So how a decode of
children fails can be said member by member.

- `walkPlaces`: the places of a walk, and the fault that ends it.
- `Eager.blocks_eq_mapM`, `Eager.entryIndices_eq_mapM`: what the eager decoder makes
  of them.
- `Regions.reads`: what is read of the child slots of an expression, until a fault.
- `Eager.children_eq_mapM`, `Regions.childSlots_eq_mapM`: decoding the children is a map
  over that, with the fault or without.
-/

namespace FlatTree

/-! ## Places until a fault -/

/-- The places of one step of a walk, or its fault. -/
def itemPlaces : Except Fault Block → List (Except Fault (SlotType × Nat))
  | .error fault => [.error fault]
  | .ok block => block.places.map .ok

/-- The places of a walk in order, and after them the fault that ends it. -/
def walkPlaces (items : List (Except Fault Block)) : List (Except Fault (SlotType × Nat)) :=
  items.flatMap itemPlaces

theorem ok_mem_walkPlaces {items : List (Except Fault Block)} {place : SlotType × Nat} :
    .ok place ∈ walkPlaces items ↔ ∃ block, .ok block ∈ items ∧ place ∈ block.places := by
  rw [walkPlaces, List.mem_flatMap]
  constructor
  · rintro ⟨item, hitem, hplace⟩
    cases item with
    | error fault => simp [itemPlaces] at hplace
    | ok block =>
      obtain ⟨_, hmem, heq⟩ := List.mem_map.mp hplace
      cases heq
      exact ⟨block, hitem, hmem⟩
  · rintro ⟨block, hblock, hplace⟩
    exact ⟨.ok block, hblock, List.mem_map_of_mem hplace⟩

theorem error_mem_walkPlaces {items : List (Except Fault Block)} {fault : Fault} :
    .error fault ∈ walkPlaces items ↔ .error fault ∈ items := by
  rw [walkPlaces, List.mem_flatMap]
  constructor
  · rintro ⟨item, hitem, hfault⟩
    cases item with
    | error other =>
      rw [itemPlaces, List.mem_singleton] at hfault
      cases hfault
      exact hitem
    | ok block => simp [itemPlaces] at hfault
  · intro hfault
    exact ⟨_, hfault, List.mem_cons_self⟩

/-- Without a fault, the places of a walk are those of its blocks. -/
theorem walkPlaces_map_ok (blocks : List Block) :
    walkPlaces (blocks.map .ok) = (blocks.flatMap Block.places).map .ok := by
  rw [walkPlaces, List.flatMap_map, List.map_flatMap]
  rfl

variable {r : Regions}

/-- A place of an expression of type expression is a reference to what its word names. -/
theorem Regions.Refers.of_mem_walkPlaces {index slot : Nat} {range : SlotRange} {word : UInt64}
    (hrange : r.children index = .ok range)
    (hplace : .ok (.expression, slot) ∈ walkPlaces ((Blocks.ofRange range).toList r))
    (hword : r.argWord slot = .ok word) : r.Refers index word.toNat := by
  obtain ⟨block, hblock, hmem⟩ := ok_mem_walkPlaces.mp hplace
  obtain ⟨_, hslot, heq⟩ := List.mem_map.mp hmem
  obtain ⟨htype, rfl⟩ := Prod.mk.inj heq
  exact ⟨range, block, _, word, hrange, hblock, htype, hslot, hword, rfl⟩

/-- Blocks are decoded place by place, until a fault. -/
theorem Eager.blocks_eq_mapM (child : Nat → Decoded Value) (items : List (Except Fault Block)) :
    Eager.blocks r child items =
      (walkPlaces items).mapM fun place => Decoded.lift place >>= Eager.placeValue r child := by
  induction items with
  | nil => rfl
  | cons item rest ih =>
    rw [walkPlaces, List.flatMap_cons, List.mapM_append, ← walkPlaces, ← ih]
    cases item with
    | error fault => rfl
    | ok block =>
      have hblock : ((itemPlaces (.ok block)).mapM fun place =>
          Decoded.lift place >>= Eager.placeValue r child) =
            Eager.slots r child block.type block.slots.toList := by
        rw [itemPlaces, List.mapM_map, Eager.slots_eq_mapM]
        rfl
      rw [hblock]
      rfl

/-- Entries are found place by place, until a fault. No block is empty, so one of another
type is missed by neither. -/
theorem Eager.entryIndices_eq_mapM {shape : Shape} {index : Nat} :
    ∀ {items : List (Except Fault Block)},
      (∀ block, .ok block ∈ items → block.slots.start < block.slots.stop) →
        Eager.entryIndices r shape index items =
          (walkPlaces items).mapM fun place =>
            Decoded.lift place >>= Eager.placeEntry r shape index
  | [], _ => rfl
  | .error fault :: rest, _ => rfl
  | .ok block :: rest, h => by
    have ih := @entryIndices_eq_mapM shape index rest fun b hb => h b (List.mem_cons_of_mem _ hb)
    rw [walkPlaces, List.flatMap_cons, List.mapM_append, ← walkPlaces, ← ih]
    by_cases htype : block.type = .expression
    · have hblock : ((itemPlaces (.ok block)).mapM fun place =>
          Decoded.lift place >>= Eager.placeEntry r shape index) =
            (block.slots.toList.map fun slot => (SlotType.expression, slot)).mapM
              (Eager.placeEntry r shape index) := by
        rw [itemPlaces, Block.places, htype, List.mapM_map]
        rfl
      rw [hblock, Eager.mapM_placeEntry, Eager.entryIndices_cons htype, bind_assoc]
      rfl
    · obtain ⟨others, hothers⟩ := block.exists_places_eq_cons (h block List.mem_cons_self)
      rw [Eager.entryIndices_cons_ne htype, itemPlaces, hothers, List.map_cons, List.mapM_cons]
      show _ = (Eager.placeEntry r shape index (block.type, block.slots.start) >>= _) >>= _
      rw [Eager.placeEntry, if_neg htype]
      rfl

/-! ## Reads until a fault -/

namespace Regions

/-- What is read of the child slots of an expression in order, and after that the first
fault. -/
def reads (r : Regions) (index : Nat) : List (Except Fault Slot) :=
  match r.children index with
  | .error fault => [.error fault]
  | .ok range => (walkPlaces ((Blocks.ofRange range).toList r)).map fun place =>
    place >>= fun place => Slot.read r place.1 place.2

/-- An expression among the child slots of another is one that it refers to. -/
theorem Refers.of_mem_reads {index next : Nat} (h : .ok (.expression next) ∈ r.reads index) :
    r.Refers index next := by
  rw [reads] at h
  split at h
  · simp at h
  · next range hrange =>
    obtain ⟨place, hplace, hread⟩ := List.mem_map.mp h
    obtain ⟨⟨type, slot⟩, rfl, hread⟩ := bind_eq_ok.mp hread
    have htype : type = .expression := (Slot.type_of_read hread).symm
    subst htype
    obtain ⟨word, hword, heq⟩ := Slot.read_expression.mp hread
    cases heq
    exact .of_mem_walkPlaces hrange hplace hword

/-- The slots of a walk are read place by place, until a fault. -/
theorem walkSlots_eq_mapM (items : List (Except Fault Block)) :
    r.walkSlots items = (walkPlaces items).mapM fun place =>
      place >>= fun place => Slot.read r place.1 place.2 := by
  induction items with
  | nil => rfl
  | cons item rest ih =>
    rw [walkPlaces, List.flatMap_cons, List.mapM_append, ← walkPlaces, ← ih]
    cases item with
    | error fault => rfl
    | ok block =>
      rw [itemPlaces, List.mapM_map]
      show (r.blockSlots block >>= _) = _
      rw [blockSlots_eq_mapM]
      rfl

/-- What the child slots of an expression hold is all that is read, without a fault. -/
theorem childSlots_eq_mapM (index : Nat) : r.childSlots index = (r.reads index).mapM id := by
  rw [childSlots, reads]
  cases r.children index with
  | error fault => rfl
  | ok range =>
    rw [List.mapM_map, ok_bind, walkSlots_eq_mapM]
    rfl

end Regions

/-- The children of an expression are decoded read by read, until a fault. -/
theorem Eager.children_eq_mapM (child : Nat → Decoded Value) (index : Nat) :
    Eager.children r child index =
      (r.reads index).mapM fun read => Decoded.lift read >>= Slot.value child := by
  rw [Eager.children, Regions.reads]
  cases r.children index with
  | error fault => rfl
  | ok range =>
    rw [List.mapM_map]
    show Eager.blocks r child _ = _
    rw [Eager.blocks_eq_mapM]
    refine mapM_congr_mem fun place _ => ?_
    cases place <;> rfl

/-- Some expression is blamed already when decoding one fails. -/
theorem Eager.blaming_expression (index : Nat) (limit levels child : Nat) :
    Decoded.blaming index (Eager.expression r limit levels child) =
      Eager.expression r limit levels child := by
  cases levels with
  | zero => rfl
  | succ levels => rw [Eager.expression, Decoded.blaming_blaming]

end FlatTree
