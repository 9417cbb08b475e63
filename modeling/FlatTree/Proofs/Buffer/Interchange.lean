import FlatTree.Decode.Promotion
import FlatTree.Proofs.Buffer.Places

/-!
# Buffers that differ in their runs

Two buffers may hold the same records and the same texts, and still differ: what is
a run of tags in one may be written slot by slot in the other, and of the word of a
truth value only the low byte counts.

- `Regions.Interchangeable`: buffers that differ in nothing else.
- `Interchangeable.expression`, `children`, `headOf`: they have the same records.
- `Interchangeable.read`: their slots hold the same under the types that a walk
  gives to them, or meet the same fault.
-/

namespace FlatTree.Regions

/-- Wherever a slot is among the children of an expression, it is a truth value. -/
def OnlyBool (r : Regions) (slot : Nat) : Prop :=
  ∀ index range places type, r.children index = .ok range → r.Expands range places →
    (type, slot) ∈ places → type = .bool

/-- Buffers with the same counts, records and texts. Walks over the children of an
expression meet no fault in either, and expand to the same types. The words of the
slots are the same, but for the bits of truth values that are never read. -/
structure Interchangeable (r s : Regions) : Prop where
  argCount : r.argCount = s.argCount
  exprs : r.exprs = s.exprs
  strings : r.strings = s.strings
  walks : ∀ index range, r.children index = .ok range →
    ∃ places, r.Expands range places ∧ s.Expands range places
  words : ∀ slot word word', r.argWord slot = .ok word → s.argWord slot = .ok word' →
    word = word' ∨ (word &&& 0xFF = word' &&& 0xFF ∧ r.OnlyBool slot)

/-- A slot has a word exactly if it is one of those that are counted. -/
theorem argWord_cases (r : Regions) (slot : Nat) :
    (slot < r.argCount ∧ ∃ word, r.argWord slot = .ok word) ∨
      (r.argCount ≤ slot ∧ r.argWord slot = .error (.slotOutOfRange slot r.argCount)) := by
  have hcount : slot < r.argCount ↔ slot * wordSize + wordSize ≤ r.args.size := by
    simp only [argCount, wordSize]
    omega
  rw [argWord, slotWord, wordAt?]
  by_cases h : slot * wordSize + wordSize ≤ r.args.size
  · rw [if_pos h]
    exact .inl ⟨hcount.mpr h, _, rfl⟩
  · rw [if_neg h]
    exact .inr ⟨Nat.le_of_not_lt (mt hcount.mp h), rfl⟩

namespace Interchangeable

variable {r s : Regions}

theorem expression (h : r.Interchangeable s) (index : Nat) :
    s.expression index = r.expression index := by
  rw [Regions.expression, Regions.expression, exprCount, exprCount, h.exprs]

theorem children (h : r.Interchangeable s) (index : Nat) :
    s.children index = r.children index := by
  rw [Regions.children, Regions.children, h.expression, h.argCount]

theorem headOf (h : r.Interchangeable s) (index : Nat) :
    FlatTree.headOf s index = FlatTree.headOf r index := by
  rw [FlatTree.headOf, FlatTree.headOf, h.expression, h.strings]

/-- What a slot holds is the same in both, under the type that a walk gives to it. -/
theorem read (h : r.Interchangeable s) {index : Nat} {range : SlotRange}
    {places : List (SlotType × Nat)} (hrange : r.children index = .ok range)
    (hplaces : r.Expands range places) {type : SlotType} {slot : Nat}
    (hmem : (type, slot) ∈ places) : Slot.read s type slot = Slot.read r type slot := by
  rcases r.argWord_cases slot with ⟨hslot, word, hword⟩ | ⟨hslot, hfault⟩
  · rcases s.argWord_cases slot with ⟨-, word', hword'⟩ | ⟨hslot', -⟩
    · rw [Slot.read, Slot.read, hword, hword', ok_bind, ok_bind, h.strings]
      rcases h.words slot word word' hword hword' with rfl | ⟨hlow, honly⟩
      · rfl
      · rw [honly index range places type hrange hplaces hmem, hlow]
    · rw [← h.argCount] at hslot'
      exact absurd hslot (Nat.not_lt.mpr hslot')
  · rcases s.argWord_cases slot with ⟨hslot', -⟩ | ⟨-, hfault'⟩
    · rw [← h.argCount] at hslot'
      exact absurd hslot' (Nat.not_lt.mpr hslot)
    · rw [Slot.read, Slot.read, hfault, hfault', h.argCount]
      rfl

end Interchangeable

end FlatTree.Regions
