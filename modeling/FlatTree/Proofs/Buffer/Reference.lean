import FlatTree.Decode.Eager
import FlatTree.Proofs.Buffer.Read

/-!
# References between expressions

What an expression holds is decided by its tags and its slots alone, whatever
becomes of the expressions that it refers to.

- `Regions.childSlots`: everything the child slots of an expression hold, or the
  first fault on the way.
- `Regions.Refers`: one expression refers to another. The relation looks at the
  tags only, so it also speaks of expressions whose later slots are faulty.
- `Regions.Chain`: a chain of references of a given length. Buffers may be
  cyclic, so chains need not end.
-/

namespace FlatTree

/-- A slot holds what its type says. -/
theorem Slot.type_of_read {r : Regions} {type : SlotType} {slot : Nat} {s : Slot}
    (h : Slot.read r type slot = .ok s) : s.type = type := by
  obtain ⟨word, -, h⟩ := bind_eq_ok.mp h
  cases type with
  | bool => cases h; rfl
  | long => cases h; rfl
  | double => cases h; rfl
  | string =>
    obtain ⟨text, -, h⟩ := bind_eq_ok.mp h
    cases h
    rfl
  | symbol =>
    obtain ⟨text, -, h⟩ := bind_eq_ok.mp h
    cases h
    rfl
  | expression => cases h; rfl

/-- A slot of expression type holds the number of an expression. -/
theorem Slot.read_expression {r : Regions} {slot : Nat} {s : Slot} :
    Slot.read r .expression slot = .ok s ↔
      ∃ word, r.argWord slot = .ok word ∧ s = .expression word.toNat := by
  show (r.argWord slot >>= fun word => pure (Slot.expression word.toNat)) = .ok s ↔ _
  rw [bind_eq_ok]
  constructor
  · rintro ⟨word, hword, h⟩
    exact ⟨word, hword, (pure_eq_ok.mp h).symm⟩
  · rintro ⟨word, hword, rfl⟩
    exact ⟨word, hword, rfl⟩

theorem Blocks.toList_of_none {r : Regions} {b : Blocks} (h : b.next r = none) :
    b.toList r = [] := by
  rw [Blocks.toList]
  split
  · rfl
  · next heq =>
    rw [h] at heq
    cases heq

theorem Blocks.toList_of_some {r : Regions} {b rest : Blocks} {item : Except Fault Block}
    (h : b.next r = some (item, rest)) : b.toList r = item :: rest.toList r := by
  rw [Blocks.toList]
  split
  · next heq =>
    rw [h] at heq
    cases heq
  · next heq =>
    rw [h] at heq
    cases heq
    rfl

/-- A walk ends where no slots are left. -/
theorem Blocks.toList_of_le {r : Regions} {cursor stop : Nat} (h : stop ≤ cursor) :
    Blocks.toList r ⟨cursor, stop⟩ = [] :=
  Blocks.toList_of_none (if_pos h)

/-- A walk takes one block for a tag that fits. -/
theorem Blocks.toList_of_read {r : Regions} {cursor stop : Nat} {tag : Tag}
    (hread : Tag.read r cursor = .ok tag) (hfits : cursor + tag.span ≤ stop) :
    Blocks.toList r ⟨cursor, stop⟩ =
      .ok ⟨tag.type, ⟨cursor, cursor + tag.span⟩⟩ ::
        Blocks.toList r ⟨cursor + tag.span, stop⟩ := by
  have hspan := Tag.span_pos_of_read hread
  refine Blocks.toList_of_some ?_
  rw [Blocks.next, if_neg (show ¬ stop ≤ cursor by omega), hread]
  simp only [if_pos hfits]

/-- The blocks of a walk are not empty. -/
theorem Blocks.start_lt_stop_of_mem {r : Regions} {b : Blocks} {block : Block}
    (h : .ok block ∈ b.toList r) : block.slots.start < block.slots.stop := by
  fun_induction Blocks.toList r b with
  | case1 b hnext => cases h
  | case2 b item rest hnext ih =>
    rcases List.mem_cons.mp h with hitem | hrest
    · subst hitem
      obtain ⟨hslots, hlt, -, -⟩ := Blocks.block_of_next hnext
      rw [hslots]
      exact hlt
    · exact ih hrest

/-- A block that is not empty has a first slot. -/
theorem SlotRange.toList_eq_cons {range : SlotRange} (h : range.start < range.stop) :
    ∃ rest, range.toList = range.start :: rest := by
  refine ⟨List.range' (range.start + 1) (range.size - 1), ?_⟩
  have hsize : range.size = range.size - 1 + 1 := by
    simp only [SlotRange.size]
    omega
  rw [SlotRange.toList, hsize, List.range'_succ]
  rfl

namespace Regions

variable (r : Regions)

/-- What the slots of a block hold. -/
def blockSlots (block : Block) : Except Fault (List Slot) :=
  block.slots.toList.mapM (Slot.read r block.type)

/-- What the slots of a walk hold, block by block. -/
def walkSlots : List (Except Fault Block) → Except Fault (List Slot)
  | [] => return []
  | item :: rest => do
    let block ← item
    let slots ← r.blockSlots block
    return slots ++ (← walkSlots rest)

/-- What the child slots of an expression hold. -/
def childSlots (index : Nat) : Except Fault (List Slot) := do
  let range ← r.children index
  r.walkSlots ((Blocks.ofRange range).toList r)

/-- A slot of `index` that the tags make an expression refers to `target`. -/
def Refers (index target : Nat) : Prop :=
  ∃ range block slot word, r.children index = .ok range ∧
    .ok block ∈ (Blocks.ofRange range).toList r ∧ block.type = .expression ∧
    slot ∈ block.slots.toList ∧ r.argWord slot = .ok word ∧ word.toNat = target

/-- A chain of so many references leads from one expression to another. -/
inductive Chain : Nat → Nat → Nat → Prop where
  | nil {index : Nat} : Chain 0 index index
  | cons {n index next target : Nat} :
    r.Refers index next → Chain n next target → Chain (n + 1) index target

variable {r}

/-- One reference more leads one step further. -/
theorem Chain.snoc {n index last target : Nat} (h : r.Chain n index last)
    (hlast : r.Refers last target) : r.Chain (n + 1) index target := by
  induction h with
  | nil => exact .cons hlast .nil
  | cons hnext _ ih => exact .cons hnext (ih hlast)

theorem walkSlots_cons {item : Except Fault Block} {rest : List (Except Fault Block)}
    {slots : List Slot} :
    r.walkSlots (item :: rest) = .ok slots ↔
      ∃ block first others, item = .ok block ∧ r.blockSlots block = .ok first ∧
        r.walkSlots rest = .ok others ∧ slots = first ++ others := by
  show (item >>= _) = .ok slots ↔ _
  constructor
  · intro h
    obtain ⟨block, hitem, h⟩ := bind_eq_ok.mp h
    obtain ⟨first, hfirst, h⟩ := bind_eq_ok.mp h
    obtain ⟨others, hothers, h⟩ := bind_eq_ok.mp h
    exact ⟨block, first, others, hitem, hfirst, hothers, (pure_eq_ok.mp h).symm⟩
  · rintro ⟨block, first, others, rfl, hfirst, hothers, rfl⟩
    rw [ok_bind, hfirst, ok_bind, hothers]
    rfl

theorem childSlots_eq_ok {index : Nat} {slots : List Slot} :
    r.childSlots index = .ok slots ↔
      ∃ range, r.children index = .ok range ∧
        r.walkSlots ((Blocks.ofRange range).toList r) = .ok slots :=
  bind_eq_ok

/-- The expressions among the slots of a walk stand in its blocks of expressions. -/
theorem expression_mem_walkSlots {target : Nat} :
    ∀ {items : List (Except Fault Block)} {slots : List Slot},
      r.walkSlots items = .ok slots →
        (.expression target ∈ slots ↔
          ∃ block slot word, .ok block ∈ items ∧ block.type = .expression ∧
            slot ∈ block.slots.toList ∧ r.argWord slot = .ok word ∧ word.toNat = target)
  | [], slots, h => by
    cases pure_eq_ok.mp h
    simp
  | item :: rest, slots, h => by
    obtain ⟨block, first, others, rfl, hfirst, hothers, rfl⟩ := walkSlots_cons.mp h
    have ih := @expression_mem_walkSlots target _ _ hothers
    rw [List.mem_append, ih]
    constructor
    · rintro (hmem | ⟨b, slot, word, hb, hrest⟩)
      · obtain ⟨slot, hslot, hread⟩ := exists_of_mem_mapM hfirst hmem
        have htype : block.type = .expression := (Slot.type_of_read hread).symm
        rw [htype] at hread
        obtain ⟨word, hword, heq⟩ := Slot.read_expression.mp hread
        cases heq
        exact ⟨block, slot, word, List.mem_cons_self, htype, hslot, hword, rfl⟩
      · exact ⟨b, slot, word, List.mem_cons_of_mem _ hb, hrest⟩
    · rintro ⟨b, slot, word, hb, htype, hslot, hword, rfl⟩
      rcases List.mem_cons.mp hb with heq | hb
      · cases heq
        obtain ⟨s, hs, hread⟩ := mem_of_mem_mapM hfirst hslot
        rw [htype] at hread
        obtain ⟨word', hword', rfl⟩ := Slot.read_expression.mp hread
        rw [hword] at hword'
        cases hword'
        exact .inl hs
      · exact .inr ⟨b, slot, word, hb, htype, hslot, hword, rfl⟩

/-- Of an expression without faults, the references are its expression slots. -/
theorem refers_iff_mem {index target : Nat} {slots : List Slot}
    (h : r.childSlots index = .ok slots) :
    r.Refers index target ↔ .expression target ∈ slots := by
  obtain ⟨range, hrange, hwalk⟩ := childSlots_eq_ok.mp h
  rw [expression_mem_walkSlots hwalk]
  constructor
  · rintro ⟨range', block, slot, word, hrange', hrest⟩
    rw [hrange] at hrange'
    cases hrange'
    exact ⟨block, slot, word, hrest⟩
  · rintro ⟨block, slot, word, hrest⟩
    exact ⟨range, block, slot, word, hrange, hrest⟩

end Regions

end FlatTree
