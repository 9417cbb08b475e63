import FlatTree.Build.Raw
import FlatTree.Proofs.Buffer.Word

/-!
# Texts read back

The heap is read in chunks, which no text cares about: a text goes from its
offset to the next zero byte, or to the end of the heap. A text that was added
to the heap is therefore read back, if it has no zero byte of its own. In UTF-8
only one character has one.

- `Heap.textEnd_spec`: where a text ends, said without chunks.
- `Heap.Storable`: the texts that the heap can hold.
- `Heap.Holds`: a text stands at an offset of a heap. More texts can be added.
- `Heap.Holds.textAt`: such a text is read back.
- `Heap.cut`, `Heap.Holds.cut`: any other text is held up to its first zero byte.
-/

namespace FlatTree.Heap

variable {heap : ByteArray}

/-! ## The end of a text -/

theorem zeroByte?_eq_some {i stop found : Nat} (h : zeroByte? heap i stop = some found) :
    i ≤ found ∧ found < stop ∧ heap[found]? = some 0 ∧
      ∀ k, i ≤ k → k < found → heap[k]? ≠ some 0 := by
  fun_induction zeroByte? heap i stop with
  | case1 i hlt hzero =>
    cases h
    exact ⟨Nat.le_refl _, hlt, hzero, fun k hle hk => absurd hk (Nat.not_lt.mpr hle)⟩
  | case2 i hlt hzero ih =>
    obtain ⟨hle, hstop, hfound, hbefore⟩ := ih h
    refine ⟨Nat.le_of_succ_le hle, hstop, hfound, fun k hk => ?_⟩
    rcases Nat.eq_or_lt_of_le hk with rfl | hk
    · exact fun _ => hzero
    · exact hbefore k hk
  | case3 => cases h

theorem zeroByte?_eq_none {i stop : Nat} (h : zeroByte? heap i stop = none) :
    ∀ k, i ≤ k → k < stop → heap[k]? ≠ some 0 := by
  fun_induction zeroByte? heap i stop with
  | case1 => cases h
  | case2 i hlt hzero ih =>
    intro k hk
    rcases Nat.eq_or_lt_of_le hk with rfl | hk
    · exact fun _ => hzero
    · exact ih h k hk
  | case3 i hge => exact fun k hle hk => absurd (Nat.lt_of_le_of_lt hle hk) hge

/-- A text goes on until the first zero byte, or to the end of the heap. -/
theorem textEnd_spec {cursor : Nat} (h : cursor ≤ heap.size) :
    cursor ≤ textEnd heap cursor ∧ textEnd heap cursor ≤ heap.size ∧
      (∀ k, cursor ≤ k → k < textEnd heap cursor → heap[k]? ≠ some 0) ∧
      (textEnd heap cursor = heap.size ∨ heap[textEnd heap cursor]? = some 0) := by
  fun_induction textEnd heap cursor with
  | case1 cursor chunkEnd found hfound =>
    obtain ⟨hle, hlt, hzero, hbefore⟩ := zeroByte?_eq_some hfound
    have hend : chunkEnd ≤ heap.size := Nat.min_le_right _ _
    exact ⟨hle, by omega, hbefore, .inr hzero⟩
  | case2 cursor chunkEnd hnone hshort =>
    -- A chunk is short only at the end of the heap.
    have hend : chunkEnd = min (cursor + chunkSize) heap.size := rfl
    exact ⟨by omega, by omega, zeroByte?_eq_none hnone, .inl (by omega)⟩
  | case3 cursor chunkEnd hnone hlong ih =>
    have hend : chunkEnd = min (cursor + chunkSize) heap.size := rfl
    obtain ⟨hle, hlt, hbefore, hstop⟩ := ih (by omega)
    refine ⟨by omega, hlt, fun k hk hend => ?_, hstop⟩
    -- A byte of the text is in this chunk or in those after it.
    by_cases hchunk : k < chunkEnd
    · exact zeroByte?_eq_none hnone k hk hchunk
    · exact hbefore k (Nat.le_of_not_lt hchunk) hend

/-- The first zero byte ends a text. -/
theorem textEnd_eq {cursor stop : Nat} (hle : cursor ≤ stop) (hzero : heap[stop]? = some 0)
    (hbefore : ∀ k, cursor ≤ k → k < stop → heap[k]? ≠ some 0) : textEnd heap cursor = stop := by
  have hstop : stop < heap.size := by
    by_cases hlt : stop < heap.size
    · exact hlt
    · rw [getElem?_neg heap stop hlt] at hzero
      cases hzero
  obtain ⟨hstart, -, hnone, hend⟩ := textEnd_spec (Nat.le_trans hle (Nat.le_of_lt hstop))
  -- An end that is sooner is a zero byte before `stop`, and one that is later has
  -- gone past the zero byte at `stop`.
  rcases Nat.lt_trichotomy (textEnd heap cursor) stop with hlt | heq | hgt
  · rcases hend with hend | hend
    · omega
    · exact absurd hend (hbefore _ hstart hlt)
  · exact heq
  · exact absurd hzero (hnone stop hle hgt)

/-! ## Texts without a zero byte -/

/-- A text that the heap can hold has no character of code zero. -/
def Storable (text : String) : Prop :=
  ∀ c ∈ text.toList, c.val ≠ 0

instance (text : String) : Decidable (Storable text) :=
  List.decidableBAll (fun c : Char => c.val ≠ 0) text.toList

/-- In UTF-8 the bytes of a character are not zero unless its code is. -/
theorem ne_zero_of_mem_utf8EncodeChar {c : Char} (hc : c.val ≠ 0) {byte : UInt8}
    (h : byte ∈ String.utf8EncodeChar c) : byte ≠ 0 := by
  have hcode : c.val.toNat ≠ 0 := fun heq => hc (UInt32.toNat_inj.mp heq)
  have hbyte : ∀ n : Nat, n ≠ 0 → n < 256 → UInt8.ofNat n ≠ 0 := by
    intro n hn hlt heq
    have := congrArg UInt8.toNat heq
    rw [UInt8.toNat_ofNat_of_lt' hlt] at this
    exact hn this
  -- One byte holds the code itself, and bytes of several have their top bit set.
  rw [String.utf8EncodeChar] at h
  split at h
  · rw [List.mem_singleton] at h
    subst h
    exact hbyte _ hcode (by omega)
  · split at h
    · simp only [List.mem_cons, List.not_mem_nil, or_false] at h
      rcases h with rfl | rfl <;> exact hbyte _ (by omega) (by omega)
    · split at h
      · simp only [List.mem_cons, List.not_mem_nil, or_false] at h
        rcases h with rfl | rfl | rfl <;> exact hbyte _ (by omega) (by omega)
      · simp only [List.mem_cons, List.not_mem_nil, or_false] at h
        rcases h with rfl | rfl | rfl | rfl <;> exact hbyte _ (by omega) (by omega)

theorem toUTF8_eq (text : String) :
    text.toUTF8 = (text.toList.flatMap String.utf8EncodeChar).toByteArray := by
  rw [String.toUTF8_eq_toByteArray, ← String.utf8Encode_toList]
  rfl

/-- A text that the heap can hold has no zero byte. -/
theorem Storable.getElem?_ne {text : String} (h : Storable text) (k : Nat) :
    text.toUTF8[k]? ≠ some 0 := by
  rw [toUTF8_eq, getElem?_toByteArray]
  intro hzero
  obtain ⟨c, hc, hbyte⟩ := List.mem_flatMap.mp (List.mem_of_getElem? hzero)
  exact ne_zero_of_mem_utf8EncodeChar (h c hc) hbyte rfl

/-! ## Texts in a heap -/

/-- The entry of a text starts at an offset of a heap. -/
def Holds (heap : ByteArray) (offset : Nat) (text : String) : Prop :=
  ∃ before after, heap = before ++ (RawBuffer.textEntry text ++ after) ∧ before.size = offset

theorem Holds.append {offset : Nat} {text : String} (h : Holds heap offset text)
    (more : ByteArray) : Holds (heap ++ more) offset text := by
  obtain ⟨before, after, rfl, hoffset⟩ := h
  exact ⟨before, after ++ more, by simp only [ByteArray.append_assoc], hoffset⟩

theorem holds_append (heap : ByteArray) (text : String) :
    Holds (heap ++ RawBuffer.textEntry text) heap.size text :=
  ⟨heap, .empty, by rw [ByteArray.append_empty], rfl⟩

theorem textEntry_eq (text : String) :
    RawBuffer.textEntry text = text.toUTF8 ++ [0].toByteArray := by
  rw [RawBuffer.textEntry, ByteArray.append_toByteArray_singleton]

/-- Bytes are read as the text whose encoding they are. -/
theorem fromUTF8?_eq_some {bytes : ByteArray} {text : String} :
    String.fromUTF8? bytes = some text ↔ text.toUTF8 = bytes := by
  rw [String.fromUTF8?]
  constructor
  · intro h
    split at h
    · cases h
      rfl
    · cases h
  · rintro rfl
    exact dif_pos text.isValidUTF8

/-- A text that stands in a heap is read back. -/
theorem Holds.textAt {offset : Nat} {text : String} (h : Holds heap offset text)
    (htext : Storable text) : textAt heap offset = .ok text := by
  obtain ⟨before, after, rfl, rfl⟩ := h
  rw [textEntry_eq, ByteArray.append_assoc]
  have hend : textEnd (before ++ (text.toUTF8 ++ ([0].toByteArray ++ after))) before.size =
      before.size + text.toUTF8.size := by
    refine textEnd_eq (Nat.le_add_right _ _) ?_ fun k hk hlt => ?_
    · -- Right after the text comes the byte that ends it.
      rw [getElem?_append_add]
      have := getElem?_append_add text.toUTF8 ([0].toByteArray ++ after) 0
      rw [Nat.add_zero] at this
      rw [this]
      rfl
    · obtain ⟨j, rfl⟩ := Nat.exists_eq_add_of_le hk
      rw [getElem?_append_add, getElem?_append_of_lt (Nat.add_lt_add_iff_left.mp hlt)]
      exact htext.getElem?_ne j
  have hextract : (before ++ (text.toUTF8 ++ ([0].toByteArray ++ after))).extract before.size
      (before.size + text.toUTF8.size) = text.toUTF8 :=
    extract_part rfl rfl
  rw [Heap.textAt, if_neg (by rw [ByteArray.size_append]; omega), hend, hextract,
    fromUTF8?_eq_some.mpr rfl]

/-! ## Texts with a zero byte -/

/-- What the heap holds of any text: all before the first character of code zero. -/
def cut (text : String) : String :=
  String.ofList (text.toList.takeWhile fun c => c.val != 0)

theorem toList_cut (text : String) :
    (cut text).toList = text.toList.takeWhile fun c => c.val != 0 := by
  rw [cut, String.toList_ofList]

theorem storable_cut (text : String) : Storable (cut text) := by
  intro c hc
  rw [toList_cut] at hc
  have hne := @List.mem_takeWhile_imp _ (fun c : Char => c.val != 0) _ _ hc
  exact bne_iff_ne.mp hne

theorem Storable.cut_eq {text : String} (h : Storable text) : cut text = text := by
  rw [cut, List.takeWhile_eq_self_iff.mpr fun c hc => bne_iff_ne.mpr (h c hc), String.ofList_toList]

/-- The entry of a text starts with the entry of what is held of it. -/
theorem exists_textEntry_eq (text : String) :
    ∃ others, RawBuffer.textEntry text = RawBuffer.textEntry (cut text) ++ others := by
  have hparts := @List.takeWhile_append_dropWhile _ (fun c : Char => c.val != 0) text.toList
  have hstop := List.head?_dropWhile_not (fun c : Char => c.val != 0) text.toList
  rw [← toList_cut] at hparts
  rw [textEntry_eq, textEntry_eq, toUTF8_eq, toUTF8_eq, ← List.toByteArray_append,
    ← List.toByteArray_append, ← hparts]
  cases hrest : text.toList.dropWhile fun c => c.val != 0 with
  | nil => exact ⟨.empty, by rw [List.append_nil, ByteArray.append_empty]⟩
  | cons c rest =>
    -- The first character that is dropped ends the text, as its only byte is zero.
    rw [hrest] at hstop
    have hzero : String.utf8EncodeChar c = [0] := by
      have hc : c = Char.ofNat 0 := Char.ext (bne_eq_false_iff_eq.mp hstop)
      rw [hc]
      decide
    refine ⟨(rest.flatMap String.utf8EncodeChar ++ [0]).toByteArray, ?_⟩
    rw [← List.toByteArray_append, List.flatMap_append, List.flatMap_cons, hzero]
    simp only [List.append_assoc]

/-- Where a text stands, what is held of it stands too. -/
theorem Holds.cut {offset : Nat} {text : String} (h : Holds heap offset text) :
    Holds heap offset (cut text) := by
  obtain ⟨before, after, rfl, hoffset⟩ := h
  obtain ⟨others, hentry⟩ := exists_textEntry_eq text
  exact ⟨before, others ++ after, by rw [hentry, ByteArray.append_assoc], hoffset⟩

end FlatTree.Heap
