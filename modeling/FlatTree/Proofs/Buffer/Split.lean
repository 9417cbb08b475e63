import FlatTree.Proofs.Buffer.Layout

/-!
# Splitting any buffer

A buffer from outside may have any counts in its header. Whether it is long enough for
them is decided with words that saturate, and everything after that relies on the
decision: the products by which the regions are found must not wrap around, and the
regions must not lead out of the buffer. Here all of it is compared with the same sums
over the natural numbers.

- `numberAt`: the number that eight bytes spell. A word holds that number
  (`wordAt?_eq_some`).
- `Regions.parse_of_le`: which regions are found, if the buffer is long enough.
- `Regions.SplitFrom`: what is read of them, by places in the buffer.
- `Regions.parse_exact`: which buffers are split, how the others are refused, and what is
  read of those that are split.
-/

namespace FlatTree

/-! ## Numbers in a buffer -/

/-- The number that the eight bytes from a place spell, low byte first. -/
def numberAt (bytes : ByteArray) (i : Nat) : Nat :=
  Nat.ofDigits 256 (((bytes.data.toList.drop i).take wordSize).map UInt8.toNat)

theorem ofDigits_bytes_lt (digits : List UInt8) :
    Nat.ofDigits 256 (digits.map UInt8.toNat) < 256 ^ digits.length := by
  have hdigits : ∀ digit ∈ digits.map UInt8.toNat, digit < 256 := by
    intro digit hdigit
    obtain ⟨byte, -, rfl⟩ := List.mem_map.mp hdigit
    exact byte.toNat_lt
  have hlt := Nat.ofDigits_lt_base_pow_length (by decide) hdigits
  rwa [List.length_map] at hlt

/-- Bytes from a place on are the byte there, and then those from the next place on. -/
theorem take_drop_data {bytes : ByteArray} {n i : Nat} (h : i < bytes.size) :
    (bytes.data.toList.drop i).take (n + 1) =
      bytes[i] :: (bytes.data.toList.drop (i + 1)).take n := by
  have hlist : i < bytes.data.toList.length := by
    rwa [Array.length_toList, ByteArray.size_data]
  rw [List.drop_eq_getElem_cons hlist, List.take_succ_cons, Array.getElem_toList,
    ByteArray.getElem_eq_getElem_data]

/-- Up to a word of bytes is read as the number that they spell. -/
theorem toNat_littleEndian_eq_ofDigits {bytes : ByteArray} :
    ∀ {n i : Nat}, n ≤ wordSize → i + n ≤ bytes.size →
      (littleEndian bytes i n).toNat =
        Nat.ofDigits 256 (((bytes.data.toList.drop i).take n).map UInt8.toNat)
  | 0, i, _, _ => by
    rw [List.take_zero]
    rfl
  | n + 1, i, hn, hsize => by
    have hlt : i < bytes.size := by omega
    have ih := @toNat_littleEndian_eq_ofDigits bytes n (i + 1) (Nat.le_of_succ_le hn) (by omega)
    have hbyte : bytes[i]?.getD 0 = bytes[i] := by
      rw [getElem?_pos bytes i hlt, Option.getD_some]
    have hcons := @take_drop_data bytes n i hlt
    -- The digits of a word spell less than a word can say, so no sum wraps around.
    have hbound : Nat.ofDigits 256 (((bytes.data.toList.drop i).take (n + 1)).map UInt8.toNat) <
        2 ^ 64 := by
      refine Nat.lt_of_lt_of_le (ofDigits_bytes_lt _) ?_
      rw [show (2 : Nat) ^ 64 = 256 ^ 8 from rfl]
      refine Nat.pow_le_pow_right (by decide) (Nat.le_trans ?_ hn)
      rw [List.length_take]
      exact Nat.min_le_left _ _
    rw [hcons, List.map_cons, Nat.ofDigits_cons] at hbound ⊢
    rw [littleEndian, hbyte, UInt64.toNat_add, UInt64.toNat_mul, ih, UInt8.toNat_toUInt64,
      Nat.add_mod_mod]
    exact Nat.mod_eq_of_lt hbound

/-- A word is read where there are bytes for it, and holds the number that they spell. -/
theorem wordAt?_eq_some {bytes : ByteArray} {i : Nat} {word : UInt64} :
    wordAt? bytes i = some word ↔ i + wordSize ≤ bytes.size ∧ word.toNat = numberAt bytes i := by
  rw [wordAt?]
  split
  · next h =>
    have hnumber := toNat_littleEndian_eq_ofDigits (Nat.le_refl wordSize) h
    rw [Option.some.injEq, ← UInt64.toNat_inj, hnumber]
    exact ⟨fun heq => ⟨h, heq.symm⟩, fun heq => heq.2.symm⟩
  · next h => exact iff_of_false (fun h => by cases h) (fun hle => h hle.1)

/-- A number inside a part of a buffer is a number of the buffer. -/
theorem numberAt_extract {bytes : ByteArray} {start stop i : Nat} (h : i + wordSize ≤ stop - start) :
    numberAt (bytes.extract start stop) i = numberAt bytes (start + i) := by
  rw [numberAt, numberAt, ByteArray.data_extract, Array.toList_extract, List.extract_eq_take_drop,
    List.drop_take, List.take_take, List.drop_drop, Nat.min_eq_left (by omega)]

theorem wordAt?_extract {bytes : ByteArray} {start stop i : Nat} (hstop : stop ≤ bytes.size)
    {word : UInt64} :
    wordAt? (bytes.extract start stop) i = some word ↔
      i + wordSize ≤ stop - start ∧ word.toNat = numberAt bytes (start + i) := by
  rw [wordAt?_eq_some, ByteArray.size_extract, Nat.min_eq_left hstop]
  exact and_congr_right fun h => by rw [numberAt_extract h]

/-- The counts are the first two numbers of a buffer. -/
theorem Header.exists_read {bytes : ByteArray} (h : headerSize ≤ bytes.size) :
    ∃ header, Header.read bytes = .ok header ∧ header.argCount.toNat = numberAt bytes 0 ∧
      header.exprCount.toNat = numberAt bytes 8 := by
  have hheader : headerSize = 32 := rfl
  have hword : wordSize = 8 := rfl
  obtain ⟨args, hargs⟩ := exists_wordAt?_iff.mpr (show 0 + wordSize ≤ bytes.size by omega)
  obtain ⟨exprs, hexprs⟩ := exists_wordAt?_iff.mpr (show wordSize + wordSize ≤ bytes.size by omega)
  refine ⟨⟨args, exprs⟩, ?_, (wordAt?_eq_some.mp hargs).2, (wordAt?_eq_some.mp hexprs).2⟩
  rw [Header.read, if_neg (Nat.not_lt.mpr h), hargs, hexprs]

namespace Regions

/-! ## Where the regions are found -/

/-- The regions of a buffer with so many argument slots and so many expressions. -/
def cut (bytes : ByteArray) (header : Header) (a e : Nat) : Regions where
  header
  args := bytes.extract 32 (32 + 8 * a)
  argTypes := bytes.extract (32 + 8 * a) (32 + 16 * a)
  exprs := bytes.extract (32 + 16 * a) (32 + 16 * a + 24 * e)
  strings := bytes.extract (32 + 16 * a + 24 * e) bytes.size

theorem parse_of_short {bytes : ByteArray} (h : bytes.size < 32) :
    parse bytes = .error (.truncated 32 bytes.size) := by
  rw [parse, Header.read, if_pos (show bytes.size < headerSize from h)]
  rfl

section Parse

variable {bytes : ByteArray} {header : Header} {a e : Nat}

/-- A buffer that is too short for its counts is refused, also if no word can say what they
ask for: the largest word is more than the buffer has, too. -/
theorem parse_of_lt (hsize : bytes.size ≤ 2 ^ 63 - 1) (hread : Header.read bytes = .ok header)
    (ha : header.argCount.toNat = a) (he : header.exprCount.toNat = e)
    (h : bytes.size < 32 + 16 * a + 24 * e) :
    parse bytes = .error (.truncated (min (32 + 16 * a + 24 * e) (2 ^ 64 - 1)) bytes.size) := by
  rw [parse, hread, ok_bind]
  simp only [Header.toNat_requiredLength, ha, he]
  rw [if_pos (by omega)]
  rfl

/-- In a buffer that is long enough for its counts, the products by which the regions are
found are exact. -/
theorem toNat_products (hsize : bytes.size ≤ 2 ^ 63 - 1) (ha : header.argCount.toNat = a)
    (he : header.exprCount.toNat = e) (h : 32 + 16 * a + 24 * e ≤ bytes.size) :
    (header.argCount * 8).toNat = 8 * a ∧ (header.exprCount * 24).toNat = 24 * e := by
  have h8 : (8 : UInt64).toNat = 8 := rfl
  have h24 : (24 : UInt64).toNat = 24 := rfl
  rw [UInt64.toNat_mul, UInt64.toNat_mul, ha, he, h8, h24]
  omega

/-- A buffer that is long enough for its counts is split by them. -/
theorem parse_of_le (hsize : bytes.size ≤ 2 ^ 63 - 1) (hread : Header.read bytes = .ok header)
    (ha : header.argCount.toNat = a) (he : header.exprCount.toNat = e)
    (h : 32 + 16 * a + 24 * e ≤ bytes.size) : parse bytes = .ok (cut bytes header a e) := by
  obtain ⟨hargs, hexprs⟩ := toNat_products hsize ha he h
  have hshort : ¬ bytes.size < min (32 + 16 * a + 24 * e) (2 ^ 64 - 1) := by omega
  rw [parse, hread, ok_bind]
  simp only [Header.toNat_requiredLength, ha, he, hargs, hexprs]
  rw [if_neg hshort, cut, show 32 + 16 * a = 32 + 8 * a + 8 * a by omega]
  rfl

end Parse

/-! ## What is read of them -/

/-- A region of so many words, from a place in the buffer on, as it is read by slots. -/
structure HoldsWords (bytes : ByteArray) (start count : Nat)
    (read : Nat → Except Fault UInt64) : Prop where
  isOk : ∀ slot, (∃ word, read slot = .ok word) ↔ slot < count
  number : ∀ slot word, read slot = .ok word → word.toNat = numberAt bytes (start + 8 * slot)

/-- Where the record of an expression stands: after the header and both regions of slots,
24 bytes for each record before it. -/
def recordPlace (a index : Nat) : Nat :=
  32 + 16 * a + 24 * index

/-- Regions that a buffer with so many argument slots and so many expressions was split
into, without a product that wraps around, and as they are read. -/
structure SplitFrom (bytes : ByteArray) (a e : Nat) (r : Regions) : Prop where
  argCount : r.header.argCount.toNat = a
  exprCount : r.header.exprCount.toNat = e
  argBytes : (r.header.argCount * 8).toNat = 8 * a
  exprBytes : (r.header.exprCount * 24).toNat = 24 * e
  size_args : r.args.size = 8 * a
  size_argTypes : r.argTypes.size = 8 * a
  size_exprs : r.exprs.size = 24 * e
  whole : bytes.extract 0 32 ++ r.args ++ r.argTypes ++ r.exprs ++ r.strings = bytes
  args : HoldsWords bytes 32 a r.argWord
  argTypes : HoldsWords bytes (32 + 8 * a) a r.tagWord
  isOk_expression : ∀ index, (∃ record, r.expression index = .ok record) ↔ index < e
  expression : ∀ index record, r.expression index = .ok record →
    record.head.toNat = numberAt bytes (recordPlace a index) ∧
    record.start.toNat = numberAt bytes (recordPlace a index + 8) ∧
    record.stop.toNat = numberAt bytes (recordPlace a index + 16)
  children : ∀ index range, r.children index = .ok range ↔
    index < e ∧ range.start = numberAt bytes (recordPlace a index + 8) ∧
      range.stop = numberAt bytes (recordPlace a index + 16) ∧
      range.start ≤ range.stop ∧ range.stop ≤ a

variable {r : Regions}

theorem argWord_eq_slotWord : r.argWord = r.slotWord r.args := rfl

theorem tagWord_eq_slotWord : r.tagWord = r.slotWord r.argTypes := rfl

/-- A part of a buffer is read as a region of words. -/
theorem holdsWords_slotWord {bytes : ByteArray} {start stop count : Nat}
    (hcount : stop = start + 8 * count) (hstop : stop ≤ bytes.size) :
    HoldsWords bytes start count (r.slotWord (bytes.extract start stop)) := by
  constructor
  · intro slot
    simp only [slotWord_eq_ok, exists_wordAt?_iff, ByteArray.size_extract, Nat.min_eq_left hstop,
      wordSize]
    omega
  · intro slot word hread
    rw [slotWord_eq_ok, wordAt?_extract hstop, Nat.mul_comm] at hread
    exact hread.2

section Cut

variable {bytes : ByteArray} {header : Header} {a e : Nat}

theorem size_cut (h : 32 + 16 * a + 24 * e ≤ bytes.size) :
    (cut bytes header a e).args.size = 8 * a ∧ (cut bytes header a e).argTypes.size = 8 * a ∧
      (cut bytes header a e).exprs.size = 24 * e := by
  simp only [cut, ByteArray.size_extract]
  omega

/-- No byte of a buffer is left out, and none is in two regions. -/
theorem append_cut (h : 32 + 16 * a + 24 * e ≤ bytes.size) :
    bytes.extract 0 32 ++ (cut bytes header a e).args ++ (cut bytes header a e).argTypes ++
      (cut bytes header a e).exprs ++ (cut bytes header a e).strings = bytes := by
  have hjoin : ∀ {stop} next, stop ≤ next →
      bytes.extract 0 stop ++ bytes.extract stop next = bytes.extract 0 next :=
    fun next hle => (ByteArray.extract_eq_extract_append_extract _ (Nat.zero_le _) hle).symm
  simp only [cut]
  rw [hjoin _ (by omega), hjoin _ (by omega), hjoin _ (by omega), hjoin _ h]
  exact ByteArray.extract_zero_size

/-- The words of a record stand where its place says. -/
theorem expression_cut {index : Nat} {record : Record} (h : 32 + 16 * a + 24 * e ≤ bytes.size)
    (hrecord : (cut bytes header a e).expression index = .ok record) :
    record.head.toNat = numberAt bytes (recordPlace a index) ∧
      record.start.toNat = numberAt bytes (recordPlace a index + 8) ∧
      record.stop.toNat = numberAt bytes (recordPlace a index + 16) := by
  have hplace : ∀ k, 32 + 16 * a + (index * recordSize + k) = recordPlace a index + k := by
    intro k
    rw [recordPlace, recordSize]
    omega
  have hword : ∀ {k word}, wordAt? (cut bytes header a e).exprs (index * recordSize + k) =
      some word → word.toNat = numberAt bytes (recordPlace a index + k) := by
    intro k word hword
    rw [← hplace k]
    exact ((wordAt?_extract h).mp hword).2
  obtain ⟨hhead, hstart, hstop⟩ := expression_eq_ok.mp hrecord
  exact ⟨hword (k := 0) hhead, hword hstart, hword hstop⟩

/-- The regions that a long enough buffer is cut into hold its words. -/
theorem splitFrom_cut (hsize : bytes.size ≤ 2 ^ 63 - 1) (ha : header.argCount.toNat = a)
    (he : header.exprCount.toNat = e) (h : 32 + 16 * a + 24 * e ≤ bytes.size) :
    SplitFrom bytes a e (cut bytes header a e) := by
  obtain ⟨hargBytes, hexprBytes⟩ := toNat_products hsize ha he h
  obtain ⟨hargs, htypes, hexprs⟩ := @size_cut bytes header a e h
  have hargCount : (cut bytes header a e).argCount = a := by
    rw [Regions.argCount, hargs]
    exact Nat.mul_div_cancel_left a (by decide)
  have hexprCount : (cut bytes header a e).exprCount = e := by
    rw [Regions.exprCount, hexprs]
    exact Nat.mul_div_cancel_left e (by decide)
  have hisOk : ∀ index,
      (∃ record, (cut bytes header a e).expression index = .ok record) ↔ index < e := by
    intro index
    rw [exists_record_iff, hexprCount]
  have hargWord : HoldsWords bytes 32 a (cut bytes header a e).argWord := by
    rw [argWord_eq_slotWord]
    exact holdsWords_slotWord rfl (Nat.le_trans (by omega) h)
  have htagWord : HoldsWords bytes (32 + 8 * a) a (cut bytes header a e).tagWord := by
    rw [tagWord_eq_slotWord]
    exact holdsWords_slotWord (show 32 + 16 * a = _ by omega) (Nat.le_trans (by omega) h)
  refine {
    argCount := ha
    exprCount := he
    argBytes := hargBytes
    exprBytes := hexprBytes
    size_args := hargs
    size_argTypes := htypes
    size_exprs := hexprs
    whole := append_cut h
    args := hargWord
    argTypes := htagWord
    isOk_expression := hisOk
    expression := fun index record => expression_cut h
    children := fun index range => ?_ }
  rw [children_eq_ok, hargCount]
  constructor
  · rintro ⟨record, hrecord, hle, hcount, rfl⟩
    obtain ⟨-, hstart, hstop⟩ := expression_cut h hrecord
    exact ⟨(hisOk index).mp ⟨record, hrecord⟩, hstart, hstop, hle, hcount⟩
  · rintro ⟨hlt, hstart, hstop, hle, hcount⟩
    obtain ⟨record, hrecord⟩ := (hisOk index).mpr hlt
    obtain ⟨-, hstart', hstop'⟩ := expression_cut h hrecord
    rw [← hstart] at hstart'
    rw [← hstop] at hstop'
    exact ⟨record, hrecord, by omega, by omega, by rw [hstart', hstop']⟩

end Cut

/-- What becomes of a buffer whose first two words spell the counts `a` and `e`. -/
theorem parse_cases (bytes : ByteArray) (hsize : bytes.size ≤ 2 ^ 63 - 1) {a e : Nat}
    (ha : a = numberAt bytes 0) (he : e = numberAt bytes 8) :
    (bytes.size < 32 ∧ parse bytes = .error (.truncated 32 bytes.size)) ∨
    (32 ≤ bytes.size ∧ bytes.size < 32 + 16 * a + 24 * e ∧ parse bytes =
      .error (.truncated (min (32 + 16 * a + 24 * e) (2 ^ 64 - 1)) bytes.size)) ∨
    (32 + 16 * a + 24 * e ≤ bytes.size ∧ ∃ r, parse bytes = .ok r ∧ SplitFrom bytes a e r) := by
  by_cases hshort : bytes.size < 32
  · exact .inl ⟨hshort, parse_of_short hshort⟩
  have hlong : 32 ≤ bytes.size := Nat.le_of_not_lt hshort
  obtain ⟨header, hread, hargs, hexprs⟩ := Header.exists_read (show headerSize ≤ _ from hlong)
  rw [← ha] at hargs
  rw [← he] at hexprs
  by_cases hlt : bytes.size < 32 + 16 * a + 24 * e
  · exact .inr (.inl ⟨hlong, hlt, parse_of_lt hsize hread hargs hexprs hlt⟩)
  · have hle := Nat.le_of_not_lt hlt
    exact .inr (.inr ⟨hle, _, parse_of_le hsize hread hargs hexprs hle,
      splitFrom_cut hsize hargs hexprs hle⟩)

/-- **Buffers are split in exact numbers.** With the counts that its first two words spell,
a buffer is split exactly if it has a header and is as long as the counts ask for. Else it
is refused, with the length that is missing. What is read of a buffer that is split are
its own words, each in its place, and a slot, a record or a child range is refused only if
it is not there. -/
theorem parse_exact (bytes : ByteArray) (hsize : bytes.size ≤ 2 ^ 63 - 1) {a e : Nat}
    (ha : a = numberAt bytes 0) (he : e = numberAt bytes 8) :
    ((∃ r, parse bytes = .ok r) ↔ 32 ≤ bytes.size ∧ 32 + 16 * a + 24 * e ≤ bytes.size) ∧
    (∀ fault, parse bytes = .error fault ↔
      bytes.size < 32 ∧ fault = .truncated 32 bytes.size ∨
      32 ≤ bytes.size ∧ bytes.size < 32 + 16 * a + 24 * e ∧
        fault = .truncated (min (32 + 16 * a + 24 * e) (2 ^ 64 - 1)) bytes.size) ∧
    ∀ r, parse bytes = .ok r → SplitFrom bytes a e r := by
  obtain ⟨hshort, hparse⟩ | ⟨hlong, hlt, hparse⟩ | ⟨hle, r, hparse, hsplit⟩ :=
    parse_cases bytes hsize ha he
  · simp only [hparse, reduceCtorEq, exists_false, Except.error.injEq, false_implies,
      implies_true, and_true]
    refine ⟨iff_of_false not_false (by omega), fun fault => ⟨fun h => .inl ⟨hshort, h.symm⟩, ?_⟩⟩
    rintro (⟨-, h⟩ | ⟨hlong, -⟩)
    · exact h.symm
    · omega
  · simp only [hparse, reduceCtorEq, exists_false, Except.error.injEq, false_implies,
      implies_true, and_true]
    refine ⟨iff_of_false not_false (by omega),
      fun fault => ⟨fun h => .inr ⟨hlong, hlt, h.symm⟩, ?_⟩⟩
    rintro (⟨hshort, -⟩ | ⟨-, -, h⟩)
    · omega
    · exact h.symm
  · simp only [hparse, reduceCtorEq, Except.ok.injEq, forall_eq']
    refine ⟨iff_of_true ⟨r, rfl⟩ (by omega), fun fault => iff_of_false not_false ?_, hsplit⟩
    rintro (⟨hshort, -⟩ | ⟨-, hlt, -⟩) <;> omega

/-- Counts that ask for more than words can say: 16 bytes for each slot make 2 ^ 64, which
wraps around to none. -/
def wrappingCounts : ByteArray :=
  ([2 ^ 60, 0, 0, 0].flatMap wordBytes).toByteArray

/-- Two slots, and two expressions of which the second has its children in reverse. -/
def reversedChildren : ByteArray :=
  ([2, 2, 0, 0, 7, 1, 1, 5, 0, 0, 2, 0, 2, 1].flatMap wordBytes).toByteArray

/-- The first is refused, and of the second all but the reversed children is read. -/
theorem parse_exact_wrappingCounts :
    (wrappingCounts.size ≤ 2 ^ 63 - 1 ∧
      parse wrappingCounts = .error (.truncated (2 ^ 64 - 1) 32)) ∧
    reversedChildren.size ≤ 2 ^ 63 - 1 ∧
      ∃ r, parse reversedChildren = .ok r ∧ (∃ word, r.argWord 1 = .ok word) ∧
        r.children 0 = .ok ⟨0, 2⟩ ∧ (∃ record, r.expression 1 = .ok record) ∧
        ∀ range, r.children 1 ≠ .ok range := by
  have hwrapping : wrappingCounts.size ≤ 2 ^ 63 - 1 := by decide +kernel
  have hreversed : reversedChildren.size ≤ 2 ^ 63 - 1 := by decide +kernel
  obtain ⟨-, hrefused, -⟩ := parse_exact wrappingCounts hwrapping rfl rfl
  obtain ⟨hsplit, -, hreads⟩ := parse_exact reversedChildren hreversed (a := 2) (e := 2)
    (by decide +kernel) (by decide +kernel)
  obtain ⟨r, hparse⟩ := hsplit.mpr (by decide +kernel)
  have hr := hreads r hparse
  refine ⟨⟨hwrapping, (hrefused _).mpr (.inr (by decide +kernel))⟩, hreversed, r, hparse,
    (hr.args.isOk 1).mpr (by decide), (hr.children _ _).mpr (by decide +kernel),
    (hr.isOk_expression 1).mpr (by decide), fun range h => ?_⟩
  obtain ⟨-, hstart, hstop, hle, -⟩ := (hr.children _ _).mp h
  rw [hstart, hstop] at hle
  exact absurd hle (by decide +kernel)

end Regions

end FlatTree
