import FlatTree.Buffer.Layout
import FlatTree.Proofs.Decode.Outcome

/-!
# Checked reads

A region is read by slot or by index, and a read is refused exactly where the region has
no bytes for it.

- `exists_wordAt?_iff`: where a word is read.
- `Regions.slotWord_eq_ok`, `Regions.expression_eq_ok`: what a slot or a record is, in
  words.
- `Regions.exists_record_iff`: which expressions have a record.
- `Regions.children_eq_ok`: when the children of an expression are there.
-/

namespace FlatTree

/-- A word is read where there are eight bytes for it. -/
theorem exists_wordAt?_iff {bytes : ByteArray} {i : Nat} :
    (∃ word, wordAt? bytes i = some word) ↔ i + wordSize ≤ bytes.size := by
  rw [wordAt?]
  constructor
  · rintro ⟨word, h⟩
    split at h
    · assumption
    · cases h
  · intro h
    exact ⟨_, if_pos h⟩

namespace Regions

variable {r : Regions}

/-- A slot of a region is read as the word that stands in its place. -/
theorem slotWord_eq_ok {region : ByteArray} {slot : Nat} {word : UInt64} :
    r.slotWord region slot = .ok word ↔ wordAt? region (slot * wordSize) = some word := by
  rw [slotWord]
  cases wordAt? region (slot * wordSize) <;> simp

/-- A record is read word by word. -/
theorem expression_eq_ok {index : Nat} {record : Record} :
    r.expression index = .ok record ↔
      wordAt? r.exprs (index * recordSize) = some record.head ∧
      wordAt? r.exprs (index * recordSize + wordSize) = some record.start ∧
      wordAt? r.exprs (index * recordSize + 2 * wordSize) = some record.stop := by
  rw [expression]
  constructor
  · intro h
    split at h
    · next hhead hstart hstop =>
      cases h
      exact ⟨hhead, hstart, hstop⟩
    · cases h
  · rintro ⟨hhead, hstart, hstop⟩
    simp only [hhead, hstart, hstop]

/-- The expressions that have a record are those that are counted. -/
theorem exists_record_iff {index : Nat} :
    (∃ record, r.expression index = .ok record) ↔ index < r.exprCount := by
  constructor
  · rintro ⟨record, hrecord⟩
    obtain ⟨-, -, hstop⟩ := expression_eq_ok.mp hrecord
    have hsize := exists_wordAt?_iff.mp ⟨_, hstop⟩
    simp only [exprCount, recordSize, wordSize] at hsize ⊢
    omega
  · intro h
    have hword : ∀ offset, offset + wordSize ≤ recordSize →
        ∃ word, wordAt? r.exprs (index * recordSize + offset) = some word := by
      intro offset hoffset
      refine exists_wordAt?_iff.mpr ?_
      simp only [exprCount, recordSize] at h hoffset ⊢
      omega
    obtain ⟨head, hhead⟩ := hword 0 (by decide)
    obtain ⟨start, hstart⟩ := hword wordSize (by decide)
    obtain ⟨stop, hstop⟩ := hword (2 * wordSize) (by decide)
    exact ⟨⟨head, start, stop⟩, expression_eq_ok.mpr ⟨hhead, hstart, hstop⟩⟩

/-- The children are there if the record is and says that they are, in order, among the
slots. -/
theorem children_eq_ok {index : Nat} {range : SlotRange} :
    r.children index = .ok range ↔
      ∃ record, r.expression index = .ok record ∧ record.start.toNat ≤ record.stop.toNat ∧
        record.stop.toNat ≤ r.argCount ∧ range = ⟨record.start.toNat, record.stop.toNat⟩ := by
  rw [children, bind_eq_ok]
  refine exists_congr fun record => and_congr_right fun _ => ?_
  have hlt : record.stop < record.start ↔ record.stop.toNat < record.start.toNat :=
    UInt64.lt_iff_toNat_lt
  split
  · next h =>
    rw [hlt] at h
    exact iff_of_false (fun h => by cases h) (fun ⟨hle, hcount, _⟩ => by omega)
  · next h =>
    rw [hlt] at h
    show pure _ = _ ↔ _
    rw [pure_eq_ok]
    exact ⟨fun heq => ⟨by omega, by omega, heq.symm⟩, fun heq => heq.2.2.symm⟩

end Regions

end FlatTree
