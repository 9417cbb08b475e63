import FlatTree.Proofs.View.Arguments
import FlatTree.Proofs.View.Interchange

/-!
# Arguments of one type

A cursor that wants one type steps over the blocks of other types. It goes by their tags
alone, so what their slots hold can be anything: of two buffers that differ nowhere else
it yields the same. Where a cursor over all arguments meets no error it yields just the
items of that type.

- `Tag.read_congr`, `Blocks.toList_congr`: a walk reads tag words and nothing else.
- `Regions.AgreeOn`: buffers that differ only in slots of other types.
- `Regions.AgreeOn.toList_start`: a cursor over the slots of the type yields the same.
- `View.typedArguments_select`: what the calls for arguments of one type yield.
-/

namespace FlatTree

/-! ## A walk reads tag words only -/

section Congr

variable {r s : Regions} (h : ∀ slot, s.tagWord slot = r.tagWord slot)

include h

theorem Tag.read_congr (slot : Nat) : Tag.read s slot = Tag.read r slot := by
  simp only [Tag.read, h]

theorem Blocks.next_congr (b : Blocks) : b.next s = b.next r := by
  simp only [Blocks.next, Tag.read_congr h]

theorem Blocks.toList_congr (b : Blocks) : b.toList s = b.toList r := by
  fun_induction Blocks.toList r b with
  | case1 b hnext => exact Blocks.toList_of_none ((Blocks.next_congr h b).trans hnext)
  | case2 b item rest hnext ih =>
    rw [Blocks.toList_of_some ((Blocks.next_congr h b).trans hnext), ih]

end Congr

/-! ## Buffers that agree on one type -/

/-- Two buffers have the same counts, tags, records and texts, and the same words in the
slots to which the walk over the children of an expression gives a type. What the other
slots hold does not matter. -/
structure Regions.AgreeOn (r s : Regions) (index : Nat) (type : SlotType) : Prop where
  argCount : s.argCount = r.argCount
  exprCount : s.exprCount = r.exprCount
  tagWord : ∀ slot, s.tagWord slot = r.tagWord slot
  expression : ∀ child, s.expression child = r.expression child
  strings : s.strings = r.strings
  argWord : ∀ range block slot, r.children index = .ok range →
    .ok block ∈ (Blocks.ofRange range).toList r → block.type = type →
      slot ∈ block.slots.toList → s.argWord slot = r.argWord slot

namespace Regions.AgreeOn

variable {r s : Regions} {index : Nat} {type : SlotType}

theorem children (h : r.AgreeOn s index type) (child : Nat) :
    s.children child = r.children child := by
  simp only [Regions.children, h.expression, h.argCount]

/-- Where a slot has the type, the same is read in it. -/
theorem read (h : r.AgreeOn s index type) {range : SlotRange} {place : SlotType × Nat}
    (hrange : r.children index = .ok range)
    (hplace : .ok place ∈ walkPlaces ((Blocks.ofRange range).toList r)) (htype : place.1 = type) :
    Slot.read s place.1 place.2 = Slot.read r place.1 place.2 := by
  obtain ⟨block, hblock, hin⟩ := ok_mem_walkPlaces.mp hplace
  obtain ⟨slot, hslot, rfl⟩ := List.mem_map.mp hin
  have hword := h.argWord range block slot hrange hblock htype hslot
  simp only [Slot.read, hword, h.strings]

/-- **Skipped blocks are never read**: a cursor over the slots of the type yields the same
in both buffers, errors included. -/
theorem toList_start (h : r.AgreeOn s index type) :
    (Cursor.start s index (some type)).toList s = (Cursor.start r index (some type)).toList r := by
  refine Cursor.toList_start_congr h.expression (h.children index) (fun range _ => ?_)
    fun range place hrange hplace hwanted => h.read hrange hplace ?_
  · rw [Blocks.toList_congr h.tagWord]
  · exact (beq_iff_eq.mp hwanted).symm

end Regions.AgreeOn

/-! ## What the calls yield -/

namespace View

theorem type_item (v : View) (s : Slot) : (v.item s).type = s.type := by
  cases s <;> rfl

/-- Where nothing fails, the arguments of a type are the items of that type. -/
theorem map_item_typedArguments {v : View} {items : List Item} (h : v.traversal = items.map .ok)
    (type : SlotType) :
    ((v.typedArguments type).toList v.regions).map (v.item <$> ·) =
      (items.filter (·.type == type)).map .ok := by
  obtain ⟨held, e?, hheld⟩ := v.exists_held
  have htraversal := traversal_of_held hheld
  cases e? with
  | some e =>
    -- The error would be among the items.
    have hmem : .error e ∈ v.traversal := by simp [htraversal]
    rw [h] at hmem
    simp at hmem
  | none =>
    have hheld : v.arguments.toList v.regions = held.map .ok := hheld.trans (List.append_nil _)
    have hitems : held.map v.item = items :=
      map_ok_inj.mp ((List.append_nil _).symm.trans (htraversal.symm.trans h))
    obtain ⟨hslots, hexists⟩ := Cursor.toList_start_eq_map_ok.mp hheld
    have hsame : ((fun item => item.type == type) ∘ v.item) = fun s => s.type == type := by
      funext s
      simp only [Function.comp, type_item]
    rw [typedArguments, Cursor.toList_start_some hslots hexists, ← hitems, List.filter_map, hsame,
      List.map_map, List.map_map]
    rfl

/-- **Arguments of one type**: if the calls for all arguments yield items only, those for
the arguments of one type yield the items of that type in order; and they yield the same
items and errors in any other buffer that differs only in slots of other types, whatever
these hold and whether they can be read or not. -/
theorem typedArguments_select (v : View) (type : SlotType) :
    (∀ items : List Item, Calls.Yield v.call v.arguments (items.map .ok) →
      Calls.Yield v.call (v.typedArguments type) ((items.filter (·.type == type)).map .ok)) ∧
      ∀ s, v.regions.AgreeOn s v.index type →
        ∃ items : List (Decoded Item), Calls.Yield v.call (v.typedArguments type) items ∧
          Calls.Yield (v.on s).call ((v.on s).typedArguments type)
            (items.map (Item.on s <$> ·)) := by
  constructor
  · intro items h
    have htraversal := v.yield_arguments.unique h
    rw [← map_item_typedArguments htraversal]
    exact v.yield_call _
  · intro s h
    refine ⟨_, v.yield_call _, ?_⟩
    have hlist : ((v.on s).typedArguments type).toList (v.on s).regions =
        (v.typedArguments type).toList v.regions := h.toList_start
    have hitems : ((v.typedArguments type).toList v.regions).map ((v.on s).item <$> ·) =
        (((v.typedArguments type).toList v.regions).map (v.item <$> ·)).map
          (Item.on s <$> ·) := by
      rw [List.map_map]
      refine List.map_congr_left fun item _ => ?_
      cases item with
      | error e => rfl
      | ok slot => exact congrArg Except.ok (on_item s slot)
    rw [← hitems, ← hlist]
    exact (v.on s).yield_call _

/-- The torn row with a text for its symbol. -/
def mendedRow : RawBuffer := { tornRow with args := #[0, 7, 8, 0, 9] }

theorem agreeOn_tornRow : mendedRow.regions.AgreeOn tornRow.regions 0 .long where
  argCount := by rw [RawBuffer.argCount_regions, RawBuffer.argCount_regions]; rfl
  exprCount := rfl
  tagWord slot := by
    have hcount : tornRow.regions.argCount = mendedRow.regions.argCount := by
      rw [RawBuffer.argCount_regions, RawBuffer.argCount_regions]
      rfl
    unfold Regions.tagWord Regions.slotWord
    rw [hcount]
    rfl
  expression _ := rfl
  strings := rfl
  argWord range block slot hrange hblock htype hslot := by
    have hchildren : mendedRow.regions.children 0 = .ok ⟨1, 5⟩ := by decide +kernel
    have hwalk : (Blocks.ofRange ⟨1, 5⟩).toList mendedRow.regions =
        [⟨.long, ⟨1, 2⟩⟩, ⟨.long, ⟨2, 3⟩⟩, ⟨.symbol, ⟨3, 4⟩⟩, ⟨.long, ⟨4, 5⟩⟩].map .ok := by
      decide +kernel
    have hwords : ∀ slot ∈ [1, 2, 4],
        tornRow.regions.argWord slot = mendedRow.regions.argWord slot := by decide +kernel
    rw [hchildren] at hrange
    cases hrange
    rw [hwalk] at hblock
    apply hwords
    simp only [List.map_cons, List.map_nil, List.mem_cons, Except.ok.injEq, List.not_mem_nil,
      or_false] at hblock
    rcases hblock with rfl | rfl | rfl | rfl
    · simp_all [SlotRange.toList, SlotRange.size]
    · simp_all [SlotRange.toList, SlotRange.size]
    · cases htype
    · simp_all [SlotRange.toList, SlotRange.size]

/-- The longs of the mended row are those among its arguments, and the torn row, of which
not all arguments can be read, has the same. -/
theorem typedArguments_select_tornRow :
    (Calls.Yield (View.mk mendedRow.regions 0).call (View.mk mendedRow.regions 0).arguments
        ([.scalar (.long 7), .scalar (.long 8), .scalar (.symbol "Row"),
          .scalar (.long 9)].map .ok) ∧
      Calls.Yield (View.mk mendedRow.regions 0).call
        ((View.mk mendedRow.regions 0).typedArguments .long)
        ([.scalar (.long 7), .scalar (.long 8), .scalar (.long 9)].map .ok)) ∧
      mendedRow.regions.AgreeOn tornRow.regions 0 .long ∧
        Calls.Yield (View.mk tornRow.regions 0).call
          ((View.mk tornRow.regions 0).typedArguments .long)
          ([.scalar (.long 7), .scalar (.long 8), .scalar (.long 9)].map .ok) := by
  obtain ⟨hclean, hother⟩ := typedArguments_select ⟨mendedRow.regions, 0⟩ .long
  have hitems : (View.mk mendedRow.regions 0).arguments.toList mendedRow.regions =
      [.scalar (.long 7), .scalar (.long 8), .scalar (.symbol "Row"),
        .scalar (.long 9)].map .ok := by decide +kernel
  have hall := (View.mk mendedRow.regions 0).yield_arguments
  rw [← map_item_arguments, hitems] at hall
  have hlongs := hclean [.scalar (.long 7), .scalar (.long 8), .scalar (.symbol "Row"),
    .scalar (.long 9)] hall
  obtain ⟨items, hmended, htorn⟩ := hother tornRow.regions agreeOn_tornRow
  rw [hmended.unique hlongs] at htorn
  exact ⟨⟨hall, hlongs⟩, agreeOn_tornRow, htorn⟩

end View

end FlatTree
