import FlatTree.Build.Raw
import FlatTree.Proofs.Buffer.Read
import FlatTree.Proofs.Buffer.Word

/-!
# The layout read back

A buffer that is written region by region is split into the same regions again,
and their words are the words that were written. The counts of the header are
words, so this holds of buffers that are not longer than a word can say.

- `FitsMemory`: a buffer whose length is a word, as that of every buffer in memory
  is.
- `RawBuffer.regions`: the regions that the words of a buffer make up.
- `RawBuffer.parse_toBytesWith`: the buffer is split into those.
- `RawBuffer.argWord_regions`, `tagWord_regions`, `expression_regions`: what the
  regions hold.
-/

namespace FlatTree

/-- The length of bytes is a word, as it is of all bytes in memory. -/
def FitsMemory (bytes : ByteArray) : Prop :=
  bytes.size < 2 ^ 64

/-- The regions of a buffer that is written. -/
def RawBuffer.regions (raw : RawBuffer) : Regions where
  header := ⟨raw.args.size.toUInt64, raw.exprs.size.toUInt64⟩
  args := (raw.args.toList.flatMap wordBytes).toByteArray
  argTypes := (raw.tags.toList.flatMap wordBytes).toByteArray
  exprs := ((raw.exprs.toList.flatMap recordWords).flatMap wordBytes).toByteArray
  strings := raw.strings

/-- The length that counts ask for is exact as long as a word can say it, and the largest
word otherwise. -/
theorem Header.toNat_requiredLength (h : Header) :
    h.requiredLength.toNat =
      min (32 + 16 * h.argCount.toNat + 24 * h.exprCount.toNat) (2 ^ 64 - 1) := by
  have h16 : (16 : UInt64).toNat = 16 := rfl
  have h24 : (24 : UInt64).toNat = 24 := rfl
  have h32 : (32 : UInt64).toNat = 32 := rfl
  rw [requiredLength, toNat_saturatingAdd, toNat_saturatingAdd, toNat_saturatingMul,
    toNat_saturatingMul, h16, h24, h32]
  omega

namespace RawBuffer

variable {raw : RawBuffer}

/-! ## What the regions hold -/

theorem length_flatMap_recordWords (records : List Record) :
    (records.flatMap recordWords).length = records.length * 3 := by
  induction records with
  | nil => rfl
  | cons record rest ih =>
    rw [List.flatMap_cons, List.length_append, ih, List.length_cons, Nat.succ_mul, Nat.add_comm]
    rfl

@[simp] theorem size_args_regions : raw.regions.args.size = raw.args.size * wordSize := by
  rw [regions, List.size_toByteArray, length_flatMap_wordBytes, Array.length_toList]

@[simp] theorem size_argTypes_regions : raw.regions.argTypes.size = raw.tags.size * wordSize := by
  rw [regions, List.size_toByteArray, length_flatMap_wordBytes, Array.length_toList]

@[simp] theorem size_exprs_regions : raw.regions.exprs.size = raw.exprs.size * recordSize := by
  rw [regions, List.size_toByteArray, length_flatMap_wordBytes, length_flatMap_recordWords,
    Array.length_toList, Nat.mul_assoc]
  rfl

theorem argCount_regions : raw.regions.argCount = raw.args.size := by
  rw [Regions.argCount, size_args_regions, Nat.mul_div_cancel _ (by decide)]

theorem exprCount_regions : raw.regions.exprCount = raw.exprs.size := by
  rw [Regions.exprCount, size_exprs_regions, Nat.mul_div_cancel _ (by decide)]

/-- The words of a region of slots are read back by their slots. -/
theorem slotWord_eq_ok {r : Regions} {words : List UInt64} {slot : Nat} {word : UInt64} :
    r.slotWord (words.flatMap wordBytes).toByteArray slot = .ok word ↔
      words[slot]? = some word := by
  rw [Regions.slotWord_eq_ok, wordAt?_flatMap_wordBytes]

theorem argWord_regions {slot : Nat} {word : UInt64} :
    raw.regions.argWord slot = .ok word ↔ raw.args[slot]? = some word := by
  rw [← Array.getElem?_toList]
  exact slotWord_eq_ok

theorem tagWord_regions {slot : Nat} {word : UInt64} :
    raw.regions.tagWord slot = .ok word ↔ raw.tags[slot]? = some word := by
  rw [← Array.getElem?_toList]
  exact slotWord_eq_ok

/-- The words of a record stand one after another. -/
theorem getElem?_flatMap_recordWords :
    ∀ (records : List Record) (index : Nat) (k : Nat), k < 3 →
      (records.flatMap recordWords)[index * 3 + k]? =
        (records[index]?).bind fun record => (recordWords record)[k]?
  | [], index, k, _ => by simp
  | record :: rest, 0, k, hk => by
    rw [List.flatMap_cons, Nat.zero_mul, Nat.zero_add,
      List.getElem?_append_left (show k < (recordWords record).length from hk)]
    rfl
  | record :: rest, index + 1, k, hk => by
    have hplace : (index + 1) * 3 + k = (recordWords record).length + (index * 3 + k) := by
      simp only [recordWords, List.length_cons, List.length_nil]
      omega
    rw [List.flatMap_cons, hplace, List.getElem?_append_right (Nat.le_add_right _ _),
      Nat.add_sub_cancel_left, getElem?_flatMap_recordWords rest index k hk]
    rfl

theorem expression_regions {index : Nat} {record : Record} :
    raw.regions.expression index = .ok record ↔ raw.exprs[index]? = some record := by
  have hword : ∀ k < 3, wordAt? raw.regions.exprs (index * recordSize + k * wordSize) =
      (raw.exprs[index]?).bind fun record => (recordWords record)[k]? := by
    intro k hk
    rw [show index * recordSize + k * wordSize = (index * 3 + k) * wordSize by
      simp only [recordSize, wordSize]; omega]
    rw [regions, wordAt?_flatMap_wordBytes, getElem?_flatMap_recordWords _ _ _ hk,
      Array.getElem?_toList]
  have hhead := hword 0 (by decide)
  have hstart := hword 1 (by decide)
  have hstop := hword 2 (by decide)
  rw [Nat.zero_mul, Nat.add_zero] at hhead
  rw [Nat.one_mul] at hstart
  simp only [Regions.expression, hhead, hstart, hstop]
  cases raw.exprs[index]? with
  | none => simp
  | some found => simp [recordWords]

/-! ## Splitting the buffer -/

/-- The buffer is its header and its regions. -/
theorem toBytesWith_eq (reserved : UInt64 × UInt64) :
    raw.toBytesWith reserved =
      ([raw.args.size.toUInt64, raw.exprs.size.toUInt64, reserved.1, reserved.2].flatMap
          wordBytes).toByteArray ++
        (raw.regions.args ++ (raw.regions.argTypes ++ (raw.regions.exprs ++ raw.strings))) := by
  rw [toBytesWith, words]
  simp only [List.flatMap_append, List.toByteArray_append, ByteArray.append_assoc]
  rfl

theorem size_toBytesWith (reserved : UInt64 × UInt64) :
    (raw.toBytesWith reserved).size = headerSize + raw.args.size * wordSize +
      raw.tags.size * wordSize + raw.exprs.size * recordSize + raw.strings.size := by
  rw [toBytesWith_eq]
  simp only [ByteArray.size_append, List.size_toByteArray, length_flatMap_wordBytes,
    List.length_cons, List.length_nil, size_args_regions, size_argTypes_regions,
    size_exprs_regions, headerSize, wordSize]
  omega

theorem read_toBytesWith (reserved : UInt64 × UInt64) :
    Header.read (raw.toBytesWith reserved) =
      .ok ⟨raw.args.size.toUInt64, raw.exprs.size.toUInt64⟩ := by
  have hsize : headerSize ≤ (raw.toBytesWith reserved).size := by
    rw [size_toBytesWith]
    omega
  have hword : ∀ k < 4, wordAt? (raw.toBytesWith reserved) (k * wordSize) =
      [raw.args.size.toUInt64, raw.exprs.size.toUInt64, reserved.1, reserved.2][k]? := by
    intro k hk
    rw [toBytesWith_eq, wordAt?_append_left, wordAt?_flatMap_wordBytes]
    -- The four words are the header, so none of them is read beyond it.
    rw [List.size_toByteArray, length_flatMap_wordBytes]
    simp only [List.length_cons, List.length_nil, wordSize]
    omega
  have hargs := hword 0 (by decide)
  have hexprs := hword 1 (by decide)
  rw [Nat.zero_mul] at hargs
  rw [Nat.one_mul] at hexprs
  rw [Header.read, if_neg (Nat.not_lt.mpr hsize), hargs, hexprs]
  rfl

theorem size_header (reserved : UInt64 × UInt64) :
    ([raw.args.size.toUInt64, raw.exprs.size.toUInt64, reserved.1, reserved.2].flatMap
      wordBytes).toByteArray.size = headerSize := by
  rw [List.size_toByteArray, length_flatMap_wordBytes]
  rfl

section Extract

variable {reserved : UInt64 × UInt64}

theorem extract_args :
    (raw.toBytesWith reserved).extract headerSize (headerSize + raw.args.size * wordSize) =
      raw.regions.args := by
  rw [toBytesWith_eq]
  exact extract_part (size_header reserved).symm (by rw [size_args_regions])

theorem extract_argTypes (hparallel : raw.args.size = raw.tags.size) :
    (raw.toBytesWith reserved).extract (headerSize + raw.args.size * wordSize)
        (headerSize + raw.args.size * wordSize + raw.args.size * wordSize) =
      raw.regions.argTypes := by
  rw [toBytesWith_eq, ← ByteArray.append_assoc]
  refine extract_part ?_ ?_
  · rw [ByteArray.size_append, size_header, size_args_regions]
  · rw [size_argTypes_regions, hparallel]

theorem extract_exprs (hparallel : raw.args.size = raw.tags.size) :
    (raw.toBytesWith reserved).extract
        (headerSize + raw.args.size * wordSize + raw.args.size * wordSize)
        (headerSize + raw.args.size * wordSize + raw.args.size * wordSize +
          raw.exprs.size * recordSize) =
      raw.regions.exprs := by
  rw [toBytesWith_eq, ← ByteArray.append_assoc, ← ByteArray.append_assoc]
  refine extract_part ?_ ?_
  · rw [ByteArray.size_append, ByteArray.size_append, size_header, size_args_regions,
      size_argTypes_regions, hparallel]
  · rw [size_exprs_regions]

theorem extract_strings (hparallel : raw.args.size = raw.tags.size) :
    (raw.toBytesWith reserved).extract
        (headerSize + raw.args.size * wordSize + raw.args.size * wordSize +
          raw.exprs.size * recordSize) (raw.toBytesWith reserved).size =
      raw.strings := by
  rw [size_toBytesWith, toBytesWith_eq, ← ByteArray.append_assoc, ← ByteArray.append_assoc,
    ← ByteArray.append_assoc]
  refine ByteArray.extract_append_eq_right ?_ ?_ <;>
    rw [ByteArray.size_append, ByteArray.size_append, ByteArray.size_append, size_header,
      size_args_regions, size_argTypes_regions, size_exprs_regions, hparallel]

end Extract

/-- The text heap is a part of the buffer. -/
theorem size_strings_le (reserved : UInt64 × UInt64) :
    raw.strings.size ≤ (raw.toBytesWith reserved).size := by
  rw [size_toBytesWith]
  exact Nat.le_add_left _ _

/-- A buffer is split into the regions it was written from, if what its counts ask
for can be said by a word. -/
theorem parse_toBytesWith_of_counts {reserved : UInt64 × UInt64}
    (hparallel : raw.args.size = raw.tags.size)
    (hcounts : headerSize + raw.args.size * 16 + raw.exprs.size * 24 < 2 ^ 64) :
    Regions.parse (raw.toBytesWith reserved) = .ok raw.regions := by
  have hlength := @size_toBytesWith raw reserved
  simp only [headerSize, wordSize, recordSize] at hlength hcounts
  have hargs : raw.args.size.toUInt64.toNat = raw.args.size :=
    UInt64.toNat_ofNat_of_lt' (show raw.args.size < 2 ^ 64 by omega)
  have hexprs : raw.exprs.size.toUInt64.toNat = raw.exprs.size :=
    UInt64.toNat_ofNat_of_lt' (show raw.exprs.size < 2 ^ 64 by omega)
  have hrequired := Header.toNat_requiredLength ⟨raw.args.size.toUInt64, raw.exprs.size.toUInt64⟩
  rw [hargs, hexprs, Nat.min_eq_left (by omega)] at hrequired
  have hargBytes : (raw.args.size.toUInt64 * 8).toNat = raw.args.size * wordSize := by
    rw [UInt64.toNat_mul, hargs]
    exact Nat.mod_eq_of_lt (show raw.args.size * 8 < 2 ^ 64 by omega)
  have hexprBytes : (raw.exprs.size.toUInt64 * 24).toNat = raw.exprs.size * recordSize := by
    rw [UInt64.toNat_mul, hexprs]
    exact Nat.mod_eq_of_lt (show raw.exprs.size * 24 < 2 ^ 64 by omega)
  have hlong : ¬ (raw.toBytesWith reserved).size <
      32 + 16 * raw.args.size + 24 * raw.exprs.size := by
    rw [hlength]
    omega
  rw [Regions.parse, read_toBytesWith, ok_bind]
  simp only [hrequired, hargBytes, hexprBytes]
  rw [if_neg hlong, extract_args, extract_argTypes hparallel, extract_exprs hparallel,
    extract_strings hparallel]
  rfl

/-- **A buffer is split into the regions it was written from.** -/
theorem parse_toBytesWith {reserved : UInt64 × UInt64} (hparallel : raw.args.size = raw.tags.size)
    (hsize : FitsMemory (raw.toBytesWith reserved)) :
    Regions.parse (raw.toBytesWith reserved) = .ok raw.regions := by
  refine parse_toBytesWith_of_counts hparallel ?_
  -- The counts are parts of the length of the buffer, which is a word.
  rw [FitsMemory, size_toBytesWith] at hsize
  simp only [wordSize, recordSize] at hsize
  omega

end RawBuffer

end FlatTree
