import FlatTree.Proofs.Buffer.Heap
import FlatTree.Proofs.Buffer.Layout
import FlatTree.Proofs.Buffer.Places

/-!
# Slack

The text heap is the rest of a buffer, so bytes that come after the buffer are bytes of
the heap. They move the end of the heap, and with it where chunks are cut short, but
not the end of a text that has its zero byte before them.

- `Heap.Ended`: there is a zero byte from an offset on.
- `Heap.Ended.textAt_append`: the text there is the same with more bytes in the heap.
- `RawBuffer.parse_append`: a buffer with slack is split as the buffer is, but for the
  heap.
- `Regions.TextsEnded`: all texts of a buffer have their zero bytes.
- `Regions.TextsEnded.read`: its slots hold the same with slack.
-/

namespace FlatTree

/-! ## Texts that end in the heap -/

namespace Heap

variable {heap : ByteArray} {offset : Nat}

/-- There is a zero byte from an offset on. -/
def Ended (heap : ByteArray) (offset : Nat) : Prop :=
  ∃ stop, offset ≤ stop ∧ heap[stop]? = some 0

/-- A text that stands in a heap ends there. -/
theorem Holds.ended {text : String} (h : Holds heap offset text) : Ended heap offset := by
  obtain ⟨before, after, rfl, rfl⟩ := h
  refine ⟨before.size + text.toUTF8.size, Nat.le_add_right _ _, ?_⟩
  rw [textEntry_eq, ByteArray.append_assoc, getElem?_append_add]
  exact getElem?_append_add text.toUTF8 ([0].toByteArray ++ after) 0

/-- A text that ends in a heap ends at the first zero byte. -/
theorem Ended.textEnd (h : Ended heap offset) :
    offset ≤ textEnd heap offset ∧ heap[textEnd heap offset]? = some 0 ∧
      ∀ k, offset ≤ k → k < textEnd heap offset → heap[k]? ≠ some 0 := by
  obtain ⟨stop, hle, hzero⟩ := h
  have hstop : stop < heap.size := (getElem?_eq_some_iff.mp hzero).1
  obtain ⟨hstart, -, hnone, hend⟩ := textEnd_spec (Nat.le_trans hle (Nat.le_of_lt hstop))
  refine ⟨hstart, hend.resolve_left fun heq => ?_, hnone⟩
  exact hnone stop hle (heq ▸ hstop) hzero

theorem Ended.textEnd_append (h : Ended heap offset) (slack : ByteArray) :
    Heap.textEnd (heap ++ slack) offset = Heap.textEnd heap offset := by
  obtain ⟨hstart, hzero, hnone⟩ := h.textEnd
  have hlt : Heap.textEnd heap offset < heap.size := (getElem?_eq_some_iff.mp hzero).1
  refine textEnd_eq hstart ?_ fun k hk hkend => ?_
  · rw [getElem?_append_of_lt hlt, hzero]
  · rw [getElem?_append_of_lt (Nat.lt_trans hkend hlt)]
    exact hnone k hk hkend

/-- **Bytes after the end of a text do not change it**, wherever chunks are cut. -/
theorem Ended.textAt_append (h : Ended heap offset) (slack : ByteArray) :
    textAt (heap ++ slack) offset = textAt heap offset := by
  obtain ⟨hstart, hzero, -⟩ := h.textEnd
  have hlt : Heap.textEnd heap offset < heap.size := (getElem?_eq_some_iff.mp hzero).1
  have hextract : (heap ++ slack).extract offset (Heap.textEnd heap offset) =
      heap.extract offset (Heap.textEnd heap offset) := by
    have hnone : slack.extract (offset - heap.size) 0 = .empty :=
      ByteArray.extract_eq_empty_iff.mpr (by omega)
    rw [ByteArray.extract_append, Nat.sub_eq_zero_of_le (Nat.le_of_lt hlt), hnone,
      ByteArray.append_empty]
  rw [textAt, textAt, h.textEnd_append, hextract, if_neg (by rw [ByteArray.size_append]; omega),
    if_neg (by omega)]

end Heap

/-! ## Buffers with slack -/

/-- The regions of a buffer with more bytes after it. -/
def Regions.withSlack (r : Regions) (slack : ByteArray) : Regions :=
  { r with strings := r.strings ++ slack }

namespace RawBuffer

/-- A buffer with slack is split into the same regions, with more of a heap. -/
theorem parse_append {raw : RawBuffer} {reserved : UInt64 × UInt64}
    (hparallel : raw.args.size = raw.tags.size) (hsize : FitsMemory (raw.toBytesWith reserved))
    (slack : ByteArray) :
    Regions.parse (raw.toBytesWith reserved ++ slack) = .ok (raw.regions.withSlack slack) := by
  have hbytes : raw.toBytesWith reserved ++ slack =
      RawBuffer.toBytesWith { raw with strings := raw.strings ++ slack } reserved :=
    ByteArray.append_assoc
  rw [hbytes]
  refine parse_toBytesWith_of_counts hparallel ?_
  rw [FitsMemory, size_toBytesWith] at hsize
  simp only [wordSize, recordSize] at hsize
  show headerSize + raw.args.size * 16 + raw.exprs.size * 24 < 2 ^ 64
  omega

end RawBuffer

/-- A slot of this type holds the offset of a text. -/
def SlotType.isText : SlotType → Bool
  | .string => true
  | .symbol => true
  | _ => false

namespace Regions

variable {r : Regions} {slack : ByteArray}

/-- A walk over tags does not look at texts. -/
theorem toList_withSlack (slack : ByteArray) (b : Blocks) :
    b.toList (r.withSlack slack) = b.toList r := by
  have hnext : b.next (r.withSlack slack) = b.next r := rfl
  cases h : b.next r with
  | none => rw [Blocks.toList_of_none h, Blocks.toList_of_none (hnext.trans h)]
  | some found =>
    obtain ⟨item, rest⟩ := found
    have := Blocks.remaining_lt_of_next h
    rw [Blocks.toList_of_some h, Blocks.toList_of_some (hnext.trans h),
      toList_withSlack slack rest]
termination_by b.remaining.size

/-- The heads of all expressions end in the heap, and so do the texts of all slots that a
walk gives such a type. -/
structure TextsEnded (r : Regions) : Prop where
  heads : ∀ index record, r.expression index = .ok record →
    Heap.Ended r.strings record.head.toNat
  texts : ∀ index range block place word, r.children index = .ok range →
    .ok block ∈ (Blocks.ofRange range).toList r → place ∈ block.places →
      place.1.isText → r.argWord place.2 = .ok word → Heap.Ended r.strings word.toNat

namespace TextsEnded

theorem headOf (h : r.TextsEnded) (slack : ByteArray) (index : Nat) :
    FlatTree.headOf (r.withSlack slack) index = FlatTree.headOf r index := by
  show (Decoded.lift (r.expression index) >>= fun record =>
    Decoded.lift (Heap.textAt (r.strings ++ slack) record.head.toNat)) = _
  rw [FlatTree.headOf]
  cases hrecord : r.expression index with
  | error fault => rfl
  | ok record =>
    exact congrArg Decoded.lift ((h.heads index record hrecord).textAt_append slack)

/-- The slots that a walk meets hold the same with slack, or meet the same fault. -/
theorem read (h : r.TextsEnded) (slack : ByteArray) {index : Nat} {range : SlotRange}
    {block : Block} {place : SlotType × Nat} (hrange : r.children index = .ok range)
    (hblock : .ok block ∈ (Blocks.ofRange range).toList r) (hplace : place ∈ block.places) :
    Slot.read (r.withSlack slack) place.1 place.2 = Slot.read r place.1 place.2 := by
  have hword : (r.withSlack slack).argWord place.2 = r.argWord place.2 := rfl
  rw [Slot.read, Slot.read, hword]
  cases harg : r.argWord place.2 with
  | error fault => rfl
  | ok word =>
    have htext : place.1.isText → Heap.textAt (r.withSlack slack).strings word.toNat =
        Heap.textAt r.strings word.toNat := fun htype =>
      (h.texts index range block place word hrange hblock hplace htype harg).textAt_append slack
    rw [ok_bind, ok_bind]
    cases htype : place.1 with
    | string => simp only [htext (htype ▸ rfl)]
    | symbol => simp only [htext (htype ▸ rfl)]
    | _ => rfl

end TextsEnded

end Regions

end FlatTree
