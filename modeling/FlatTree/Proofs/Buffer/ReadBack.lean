import FlatTree.Proofs.Buffer.Split

/-!
# Words there and back

A writer adds word after word to one list of bytes, and a reader finds each word by its place.
What is written is read back word for word; and what is read of any buffer that splits can be
written again, and is the same buffer, but for the words of the header that are not read.

- `wordBytes_of_wordAt?`: the bytes of a word that was read.
- `Regions.readBack`: all words of regions, as they are read.
- `RawBuffer.readBack_regions`: the words that were written are read back.
- `Regions.toBytesWith_of_readBack`: the words that were read are those of the buffer.
- `RawBuffer.getElem?_toBytes`: what the free words of the header make of a buffer.
- `RawBuffer.roundTrip_words`: both ways together.
-/

namespace FlatTree

/-! ## Bytes of words that were read -/

/-- Up to a word of bytes is written as it was read. -/
theorem littleEndianBytes_littleEndian {bytes : ByteArray} :
    ∀ {n i : Nat}, n ≤ wordSize → i + n ≤ bytes.size →
      littleEndianBytes n (littleEndian bytes i n) = (bytes.data.toList.drop i).take n
  | 0, _, _, _ => List.take_zero.symm
  | n + 1, i, hn, hsize => by
    have hlt : i < bytes.size := by omega
    have hword := toNat_littleEndian_eq_ofDigits hn hsize
    have hrest := @toNat_littleEndian_eq_ofDigits bytes n (i + 1) (by omega) (by omega)
    rw [take_drop_data hlt, List.map_cons, Nat.ofDigits_cons, ← hrest] at hword
    have hbyte := bytes[i].toNat_lt
    -- The byte is the lowest digit of the word, and the rest of the word are the other digits.
    have hlow : (littleEndian bytes i (n + 1)).toUInt8 = bytes[i] := by
      rw [← UInt8.toNat_inj, UInt64.toNat_toUInt8, hword]
      omega
    have hhigh : littleEndian bytes i (n + 1) / 256 = littleEndian bytes (i + 1) n := by
      rw [← UInt64.toNat_inj, UInt64.toNat_div, hword, show (256 : UInt64).toNat = 256 from rfl]
      omega
    rw [littleEndianBytes, hlow, hhigh, take_drop_data hlt,
      littleEndianBytes_littleEndian (Nat.le_of_succ_le hn) (by omega)]

/-- A word that was read has the bytes that it was read from. -/
theorem wordBytes_of_wordAt? {bytes : ByteArray} {i : Nat} {word : UInt64}
    (h : wordAt? bytes i = some word) :
    wordBytes word = (bytes.data.toList.drop i).take wordSize := by
  rw [wordAt?] at h
  split at h
  · next hsize =>
    rw [← Option.some.inj h]
    exact littleEndianBytes_littleEndian (Nat.le_refl _) hsize
  · cases h

/-- Words that were read one after another have the bytes from the first of them on. -/
theorem flatMap_wordBytes_of_wordAt? {bytes : ByteArray} {words : List UInt64} :
    ∀ {start : Nat},
      (∀ i word, words[i]? = some word → wordAt? bytes ((start + i) * wordSize) = some word) →
        words.flatMap wordBytes =
          (bytes.data.toList.drop (start * wordSize)).take (words.length * wordSize) := by
  induction words with
  | nil =>
    intro start _
    rw [List.length_nil, Nat.zero_mul, List.take_zero, List.flatMap_nil]
  | cons word rest ih =>
    intro start h
    have hfirst := wordBytes_of_wordAt? (h 0 word rfl)
    have hrest := @ih (start + 1) fun i other hother => by
      rw [Nat.add_assoc, Nat.add_comm 1]
      exact h (i + 1) other hother
    rw [Nat.add_zero] at hfirst
    rw [List.flatMap_cons, hfirst, hrest, List.length_cons, Nat.succ_mul rest.length,
      Nat.add_comm (rest.length * wordSize), List.take_add, List.drop_drop, Nat.succ_mul]

/-- Words that were read of a region, all of them, have its bytes. -/
theorem toByteArray_flatMap_wordBytes {bytes : ByteArray} {words : List UInt64}
    (hsize : words.length * wordSize = bytes.size)
    (h : ∀ i word, words[i]? = some word → wordAt? bytes (i * wordSize) = some word) :
    (words.flatMap wordBytes).toByteArray = bytes := by
  have hwords := @flatMap_wordBytes_of_wordAt? bytes words 0 fun i word hword => by
    rw [Nat.zero_add]
    exact h i word hword
  have hall : bytes.data.toList.length ≤ words.length * wordSize := by
    rw [hsize, Array.length_toList, ByteArray.size_data]
  rw [Nat.zero_mul, List.drop_zero, List.take_of_length_le hall] at hwords
  refine ByteArray.ext (Array.toList_inj.mp ?_)
  rw [hwords, List.toList_data_toByteArray]

/-! ## Reading all words -/

/-- Reads by number succeed if each of them does, and are found by their numbers. -/
theorem mapM_range_eq_ok {ε α : Type} {read : Nat → Except ε α} {n : Nat} {as : List α} :
    (List.range n).mapM read = .ok as ↔
      as.length = n ∧ ∀ i a, as[i]? = some a → read i = .ok a := by
  rw [mapM_eq_ok, List.forall₂_iff_get]
  simp only [List.length_range, List.get_eq_getElem, List.getElem_range]
  constructor
  · rintro ⟨hlength, h⟩
    refine ⟨hlength.symm, fun i a ha => ?_⟩
    obtain ⟨hi, rfl⟩ := List.getElem?_eq_some_iff.mp ha
    exact h i (hlength ▸ hi) hi
  · rintro ⟨hlength, h⟩
    exact ⟨hlength.symm, fun i _ hi => h i _ (List.getElem?_eq_getElem hi)⟩

theorem exists_mapM_range {ε α : Type} {read : Nat → Except ε α} {n : Nat}
    (h : ∀ i < n, ∃ a, read i = .ok a) : ∃ as, (List.range n).mapM read = .ok as := by
  induction n with
  | zero => exact ⟨[], rfl⟩
  | succ n ih =>
    obtain ⟨as, has⟩ := ih fun i hi => h i (Nat.lt_succ_of_lt hi)
    obtain ⟨a, ha⟩ := h n (Nat.lt_succ_self n)
    refine ⟨as ++ [a], ?_⟩
    rw [List.range_succ, List.mapM_append, has, ok_bind, List.mapM_cons, ha]
    rfl

namespace Regions

variable {r : Regions} {raw : RawBuffer}

/-- The words of regions, slot by slot and record by record, and their heap. -/
def readBack (r : Regions) : Except Fault RawBuffer := do
  let args ← (List.range r.argCount).mapM r.argWord
  let tags ← (List.range r.argCount).mapM r.tagWord
  let exprs ← (List.range r.exprCount).mapM r.expression
  return ⟨args.toArray, tags.toArray, exprs.toArray, r.strings⟩

theorem readBack_eq_ok :
    r.readBack = .ok raw ↔
      (raw.args.size = r.argCount ∧
        ∀ slot word, raw.args[slot]? = some word → r.argWord slot = .ok word) ∧
      (raw.tags.size = r.argCount ∧
        ∀ slot word, raw.tags[slot]? = some word → r.tagWord slot = .ok word) ∧
      (raw.exprs.size = r.exprCount ∧
        ∀ index record, raw.exprs[index]? = some record → r.expression index = .ok record) ∧
      raw.strings = r.strings := by
  have hlist : ∀ {α : Type} {read : Nat → Except Fault α} {n : Nat} {as : Array α},
      (List.range n).mapM read = .ok as.toList ↔
        as.size = n ∧ ∀ i a, as[i]? = some a → read i = .ok a := by
    intro α read n as
    rw [mapM_range_eq_ok, Array.length_toList]
    simp only [Array.getElem?_toList]
  rw [readBack, ← hlist, ← hlist, ← hlist]
  constructor
  · intro h
    obtain ⟨args, hargs, h⟩ := bind_eq_ok.mp h
    obtain ⟨tags, htags, h⟩ := bind_eq_ok.mp h
    obtain ⟨exprs, hexprs, h⟩ := bind_eq_ok.mp h
    cases pure_eq_ok.mp h
    exact ⟨hargs, htags, hexprs, rfl⟩
  · rintro ⟨hargs, htags, hexprs, hstrings⟩
    rw [hargs, ok_bind, htags, ok_bind, hexprs, ok_bind, ← hstrings]
    rfl

end Regions

namespace RawBuffer

variable {raw : RawBuffer}

/-- **What is written is read back**, word for word. -/
theorem readBack_regions (hparallel : raw.args.size = raw.tags.size) :
    raw.regions.readBack = .ok raw := by
  refine Regions.readBack_eq_ok.mpr ⟨⟨argCount_regions.symm, fun slot word => argWord_regions.mpr⟩,
    ⟨?_, fun slot word => tagWord_regions.mpr⟩,
    ⟨exprCount_regions.symm, fun index record => expression_regions.mpr⟩, rfl⟩
  rw [argCount_regions, hparallel]

/-! ## The free words of the header -/

/-- The counts come first in a buffer, and the regions come after the free words. -/
theorem toBytesWith_eq_append (raw : RawBuffer) (free : UInt64 × UInt64) :
    raw.toBytesWith free =
      ([raw.args.size.toUInt64, raw.exprs.size.toUInt64].flatMap wordBytes).toByteArray ++
        (([free.1, free.2].flatMap wordBytes).toByteArray ++
          (raw.regions.args ++ (raw.regions.argTypes ++ (raw.regions.exprs ++ raw.strings)))) := by
  have hheader : [raw.args.size.toUInt64, raw.exprs.size.toUInt64, free.1, free.2] =
      [raw.args.size.toUInt64, raw.exprs.size.toUInt64] ++ [free.1, free.2] := rfl
  rw [toBytesWith_eq, hheader, List.flatMap_append, List.toByteArray_append,
    ByteArray.append_assoc]

/-- The words of the header that are not read are the only difference between buffers of the same
words. Without any they are zero. -/
theorem getElem?_toBytes (raw : RawBuffer) (reserved : UInt64 × UInt64) (i : Nat) :
    raw.toBytes[i]? = if 16 ≤ i ∧ i < 32 then some 0 else (raw.toBytesWith reserved)[i]? := by
  have hsize : ∀ first second : UInt64,
      ([first, second].flatMap wordBytes).toByteArray.size = 16 := by
    intro first second
    rw [List.size_toByteArray, length_flatMap_wordBytes]
    rfl
  rw [toBytes, toBytesWith_eq_append raw (0, 0), toBytesWith_eq_append raw reserved]
  by_cases hcounts : i < 16
  · rw [if_neg (by omega), getElem?_append_of_lt (by rw [hsize]; exact hcounts),
      getElem?_append_of_lt (by rw [hsize]; exact hcounts)]
  obtain ⟨j, rfl⟩ := Nat.exists_eq_add_of_le (Nat.le_of_not_lt hcounts)
  rw [← hsize raw.args.size.toUInt64 raw.exprs.size.toUInt64, getElem?_append_add,
    getElem?_append_add, hsize]
  by_cases hfree : j < 16
  · rw [if_pos (by omega), getElem?_append_of_lt (by rw [hsize]; exact hfree),
      getElem?_toByteArray]
    interval_cases j <;> rfl
  · obtain ⟨k, rfl⟩ := Nat.exists_eq_add_of_le (Nat.le_of_not_lt hfree)
    have hleft := getElem?_append_add ([0, 0].flatMap wordBytes).toByteArray
      (raw.regions.args ++ (raw.regions.argTypes ++ (raw.regions.exprs ++ raw.strings))) k
    have hright := getElem?_append_add ([reserved.1, reserved.2].flatMap wordBytes).toByteArray
      (raw.regions.args ++ (raw.regions.argTypes ++ (raw.regions.exprs ++ raw.strings))) k
    rw [hsize] at hleft hright
    rw [if_neg (by omega), hleft, hright]

end RawBuffer

namespace Regions

variable {r : Regions} {raw : RawBuffer} {bytes : ByteArray} {a e : Nat}

theorem SplitFrom.argCount_eq (h : SplitFrom bytes a e r) : r.argCount = a := by
  rw [Regions.argCount, h.size_args, wordSize]
  exact Nat.mul_div_cancel_left a (by decide)

theorem SplitFrom.exprCount_eq (h : SplitFrom bytes a e r) : r.exprCount = e := by
  rw [Regions.exprCount, h.size_exprs, recordSize]
  exact Nat.mul_div_cancel_left e (by decide)

/-- The words of regions that a buffer was split into can all be read. -/
theorem SplitFrom.exists_readBack (h : SplitFrom bytes a e r) : ∃ raw, r.readBack = .ok raw := by
  obtain ⟨args, hargs⟩ := exists_mapM_range fun slot hslot =>
    (h.args.isOk slot).mpr (h.argCount_eq ▸ hslot)
  obtain ⟨tags, htags⟩ := exists_mapM_range fun slot hslot =>
    (h.argTypes.isOk slot).mpr (h.argCount_eq ▸ hslot)
  obtain ⟨exprs, hexprs⟩ := exists_mapM_range fun index hindex =>
    (h.isOk_expression index).mpr (h.exprCount_eq ▸ hindex)
  refine ⟨⟨args.toArray, tags.toArray, exprs.toArray, r.strings⟩, ?_⟩
  rw [readBack, hargs, ok_bind, htags, ok_bind, hexprs]
  rfl

/-- Slots that were read, all of them, have the bytes of their region. -/
theorem toByteArray_flatMap_of_slotWord {region : ByteArray} {words : Array UInt64}
    (hsize : words.size * wordSize = region.size)
    (h : ∀ slot word, words[slot]? = some word → r.slotWord region slot = .ok word) :
    (words.toList.flatMap wordBytes).toByteArray = region := by
  refine toByteArray_flatMap_wordBytes (by rw [Array.length_toList, hsize])
    fun slot word hword => ?_
  rw [Array.getElem?_toList] at hword
  exact slotWord_eq_ok.mp (h slot word hword)

/-- Records that were read, all of them, have the bytes of the table. -/
theorem toByteArray_flatMap_of_expression {records : Array Record}
    (hsize : records.size * recordSize = r.exprs.size)
    (h : ∀ index record, records[index]? = some record → r.expression index = .ok record) :
    ((records.toList.flatMap RawBuffer.recordWords).flatMap wordBytes).toByteArray = r.exprs := by
  refine toByteArray_flatMap_wordBytes ?_ fun i word hword => ?_
  · rw [RawBuffer.length_flatMap_recordWords, Array.length_toList, ← hsize, Nat.mul_assoc]
    rfl
  -- A word of the table is one of the three of a record.
  obtain ⟨index, k, hk, rfl⟩ : ∃ index k, k < 3 ∧ i = index * 3 + k :=
    ⟨i / 3, i % 3, Nat.mod_lt _ (by decide), by omega⟩
  rw [RawBuffer.getElem?_flatMap_recordWords _ _ _ hk, Array.getElem?_toList] at hword
  obtain ⟨record, hrecord, hword⟩ := Option.bind_eq_some_iff.mp hword
  obtain ⟨hhead, hstart, hstop⟩ := expression_eq_ok.mp (h index record hrecord)
  have hplace : (index * 3 + k) * wordSize = index * recordSize + k * wordSize := by
    simp only [recordSize, wordSize]
    omega
  rw [hplace]
  interval_cases k <;> cases hword
  · exact hhead
  · rw [Nat.one_mul]
    exact hstart
  · exact hstop

/-- The header of a buffer spells the counts and two words that are not read. -/
theorem exists_header (hlong : 32 ≤ bytes.size) {argCount exprCount : UInt64}
    (hargs : argCount.toNat = numberAt bytes 0) (hexprs : exprCount.toNat = numberAt bytes 8) :
    ∃ first second : UInt64,
      ([argCount, exprCount, first, second].flatMap wordBytes).toByteArray =
        bytes.extract 0 32 := by
  have hword : wordSize = 8 := rfl
  obtain ⟨first, hfirst⟩ := exists_wordAt?_iff.mpr (show 16 + wordSize ≤ bytes.size by omega)
  obtain ⟨second, hsecond⟩ := exists_wordAt?_iff.mpr (show 24 + wordSize ≤ bytes.size by omega)
  have hnumbers : ∀ i word, [argCount, exprCount, first, second][i]? = some word →
      word.toNat = numberAt bytes (i * wordSize) := by
    intro i word h
    have hi : i < 4 := (List.getElem?_eq_some_iff.mp h).1
    interval_cases i <;> cases h
    · exact hargs
    · exact hexprs
    · exact (wordAt?_eq_some.mp hfirst).2
    · exact (wordAt?_eq_some.mp hsecond).2
  refine ⟨first, second, toByteArray_flatMap_wordBytes ?_ fun i word h => ?_⟩
  · rw [ByteArray.size_extract, Nat.min_eq_left hlong]
    rfl
  · have hi : i < 4 := (List.getElem?_eq_some_iff.mp h).1
    rw [wordAt?_extract hlong, Nat.zero_add]
    refine ⟨?_, hnumbers i word h⟩
    rw [hword]
    omega

/-- **What is read of a buffer can be written again**, and is the same buffer if the free words of
its header are written too. -/
theorem toBytesWith_of_readBack (h : SplitFrom bytes a e r) (hlong : 32 ≤ bytes.size)
    (ha : a = numberAt bytes 0) (he : e = numberAt bytes 8) (hraw : r.readBack = .ok raw) :
    raw.args.size = raw.tags.size ∧ ∃ reserved, raw.toBytesWith reserved = bytes := by
  obtain ⟨⟨hargs, hargWords⟩, ⟨htags, htagWords⟩, ⟨hexprs, hrecords⟩, hstrings⟩ :=
    readBack_eq_ok.mp hraw
  rw [h.argCount_eq] at hargs htags
  rw [h.exprCount_eq] at hexprs
  have hargRegion : raw.regions.args = r.args :=
    toByteArray_flatMap_of_slotWord (by rw [hargs, h.size_args, wordSize, Nat.mul_comm]) hargWords
  have htagRegion : raw.regions.argTypes = r.argTypes :=
    toByteArray_flatMap_of_slotWord (by rw [htags, h.size_argTypes, wordSize, Nat.mul_comm])
      htagWords
  have hexprRegion : raw.regions.exprs = r.exprs :=
    toByteArray_flatMap_of_expression (by rw [hexprs, h.size_exprs, recordSize, Nat.mul_comm])
      hrecords
  -- The counts came from words, so words can say them.
  have hargCount : raw.args.size.toUInt64.toNat = numberAt bytes 0 := by
    have hlt := r.header.argCount.toNat_lt
    rw [h.argCount] at hlt
    rw [hargs, ← ha]
    exact UInt64.toNat_ofNat_of_lt' hlt
  have hexprCount : raw.exprs.size.toUInt64.toNat = numberAt bytes 8 := by
    have hlt := r.header.exprCount.toNat_lt
    rw [h.exprCount] at hlt
    rw [hexprs, ← he]
    exact UInt64.toNat_ofNat_of_lt' hlt
  obtain ⟨first, second, hheader⟩ := exists_header hlong hargCount hexprCount
  refine ⟨hargs.trans htags.symm, (first, second), ?_⟩
  rw [RawBuffer.toBytesWith_eq, hheader, hargRegion, htagRegion, hexprRegion, hstrings,
    ← ByteArray.append_assoc, ← ByteArray.append_assoc, ← ByteArray.append_assoc]
  exact h.whole

end Regions

namespace RawBuffer

/-- **Words and bytes are two forms of one buffer.** The words of a buffer are split into regions
that give back every word, every record and the heap. And of any buffer that splits, all words can
be read, and written again they are that buffer, with zeros in place of the words of its header
that are not read. -/
theorem roundTrip_words :
    (∀ raw : RawBuffer, raw.args.size = raw.tags.size → FitsMemory raw.toBytes →
      ∃ r, Regions.parse raw.toBytes = .ok r ∧
        (∀ slot word, r.argWord slot = .ok word ↔ raw.args[slot]? = some word) ∧
        (∀ slot word, r.tagWord slot = .ok word ↔ raw.tags[slot]? = some word) ∧
        (∀ index record, r.expression index = .ok record ↔ raw.exprs[index]? = some record) ∧
        r.strings = raw.strings ∧ r.readBack = .ok raw) ∧
    ∀ (bytes : ByteArray) (r : Regions), bytes.size ≤ 2 ^ 63 - 1 → Regions.parse bytes = .ok r →
      ∃ raw, r.readBack = .ok raw ∧ raw.args.size = raw.tags.size ∧
        ∀ i : Nat, raw.toBytes[i]? = if 16 ≤ i ∧ i < 32 then some 0 else bytes[i]? := by
  refine ⟨fun raw hparallel hsize => ?_, fun bytes r hsize hparse => ?_⟩
  · exact ⟨raw.regions, parse_toBytesWith hparallel hsize, fun _ _ => argWord_regions,
      fun _ _ => tagWord_regions, fun _ _ => expression_regions, rfl, readBack_regions hparallel⟩
  · obtain ⟨-, herror⟩ | ⟨-, -, herror⟩ | ⟨hle, r', hok, hsplit⟩ :=
      Regions.parse_cases bytes hsize rfl rfl
    · rw [hparse] at herror
      cases herror
    · rw [hparse] at herror
      cases herror
    · rw [hparse] at hok
      cases hok
      obtain ⟨raw, hraw⟩ := hsplit.exists_readBack
      obtain ⟨hparallel, reserved, hbytes⟩ :=
        Regions.toBytesWith_of_readBack hsplit (by omega) rfl rfl hraw
      refine ⟨raw, hraw, hparallel, fun i => ?_⟩
      rw [raw.getElem?_toBytes reserved, hbytes]

/-- Words that no tree is laid out as: a tag that is none, and a record that points nowhere. -/
def strayWords : RawBuffer where
  args := #[0, 0xFFFFFFFFFFFFFFFF]
  tags := #[5, 0x0123456789ABCDEF]
  exprs := #[⟨0xFEDCBA9876543210, 2, 1⟩]
  strings := [7].toByteArray

/-- They are read back all the same. A buffer of them with other words in its header is read too,
and written again it is without those. -/
theorem roundTrip_words_strayWords :
    (strayWords.args.size = strayWords.tags.size ∧ FitsMemory strayWords.toBytes ∧
      (strayWords.toBytesWith (7, 9)).size ≤ 2 ^ 63 - 1) ∧
    (∃ r, Regions.parse strayWords.toBytes = .ok r ∧ r.tagWord 1 = .ok 0x0123456789ABCDEF ∧
      r.readBack = .ok strayWords) ∧
    ∃ r raw, Regions.parse (strayWords.toBytesWith (7, 9)) = .ok r ∧ r.readBack = .ok raw ∧
      (strayWords.toBytesWith (7, 9))[16]? = some 7 ∧ raw.toBytes[16]? = some 0 ∧
      raw.toBytes[47]? = some 0xFF := by
  have hsize : FitsMemory strayWords.toBytes := by
    unfold FitsMemory
    decide +kernel
  have hother : (strayWords.toBytesWith (7, 9)).size ≤ 2 ^ 63 - 1 := by decide +kernel
  have hparse : Regions.parse (strayWords.toBytesWith (7, 9)) = .ok strayWords.regions :=
    parse_toBytesWith rfl (Nat.lt_of_le_of_lt hother (by decide))
  obtain ⟨r, hr, -, htags, -, -, hback⟩ := roundTrip_words.1 strayWords rfl hsize
  obtain ⟨raw, hraw, -, hbytes⟩ := roundTrip_words.2 _ _ hother hparse
  refine ⟨⟨rfl, hsize, hother⟩, ⟨r, hr, (htags 1 _).mpr rfl, hback⟩, _, raw, hparse, hraw,
    by decide +kernel, hbytes 16, ?_⟩
  rw [hbytes 47]
  decide +kernel

end RawBuffer

end FlatTree
