import FlatTree.Proofs.Buffer.Heap

/-!
# Texts by a plain scan

Read without chunks, a text is all bytes from its offset up to the first zero byte, or
up to the end of the heap. The search that goes chunk by chunk finds the same end, in as
many turns as the text has chunks, and no chunk that it looks at leads out of the heap.

- `Heap.scan`: the bytes of a text, by a plain scan.
- `Heap.extract_textEnd`: the part of the heap that is taken for a text is those bytes.
- `Heap.Search`: the turns of the search, with the places where its chunks start.
- `Heap.exists_search`: the search ends, and these are its turns.
- `Heap.textAt_eq_scan`: what is read at any offset of any heap.
-/

namespace FlatTree.Heap

variable {heap : ByteArray} {offset : Nat}

/-! ## The bytes of a text -/

/-- The bytes from an offset up to the first zero byte, or up to the end of the heap. -/
def scan (heap : ByteArray) (offset : Nat) : ByteArray :=
  ((heap.data.toList.drop offset).takeWhile (· != 0)).toByteArray

theorem getElem?_toList_data (heap : ByteArray) (i : Nat) : heap.data.toList[i]? = heap[i]? := by
  rw [Array.getElem?_toList]
  by_cases h : i < heap.size
  · rw [getElem?_pos heap i h, getElem?_pos heap.data i h, ByteArray.getElem_eq_getElem_data]
  · rw [getElem?_neg heap i h, getElem?_neg heap.data i h]

/-- The bytes before a zero byte or the end are the first so many bytes. -/
theorem takeWhile_eq_take {bytes : List UInt8} {n : Nat}
    (hbefore : ∀ k < n, bytes[k]? ≠ some 0) (hend : n = bytes.length ∨ bytes[n]? = some 0) :
    bytes.takeWhile (· != 0) = bytes.take n := by
  have hall : ∀ byte ∈ bytes.take n, (byte != 0) = true := by
    intro byte hbyte
    obtain ⟨k, hk⟩ := List.getElem?_of_mem hbyte
    rw [List.getElem?_take] at hk
    split at hk
    · next hlt =>
      rw [bne_iff_ne]
      rintro rfl
      exact hbefore k hlt hk
    · cases hk
  have hstop : (bytes.drop n).takeWhile (· != 0) = [] := by
    rcases hend with rfl | hzero
    · rw [List.drop_length]
      rfl
    · have hlt : n < bytes.length := (List.getElem?_eq_some_iff.mp hzero).1
      have hbyte : bytes[n] = 0 := (List.getElem?_eq_some_iff.mp hzero).2
      rw [List.drop_eq_getElem_cons hlt, hbyte]
      rfl
  calc bytes.takeWhile (· != 0)
      = (bytes.take n ++ bytes.drop n).takeWhile (· != 0) := by rw [List.take_append_drop]
    _ = bytes.take n ++ (bytes.drop n).takeWhile (· != 0) := List.takeWhile_append_of_pos hall
    _ = bytes.take n := by rw [hstop, List.append_nil]

/-- The part of the heap that is taken for a text is what a plain scan finds. -/
theorem extract_textEnd (h : offset ≤ heap.size) :
    heap.extract offset (textEnd heap offset) = scan heap offset := by
  obtain ⟨hle, hsize, hbefore, hend⟩ := textEnd_spec h
  have hlength : heap.data.toList.length = heap.size := by
    rw [Array.length_toList, ByteArray.size_data]
  have htake : (heap.data.toList.drop offset).takeWhile (· != 0) =
      (heap.data.toList.drop offset).take (textEnd heap offset - offset) := by
    refine takeWhile_eq_take (fun k hk => ?_) ?_
    · rw [List.getElem?_drop, getElem?_toList_data]
      exact hbefore _ (Nat.le_add_right _ _) (by omega)
    · rw [List.length_drop, List.getElem?_drop, getElem?_toList_data, hlength,
        Nat.add_sub_cancel' hle]
      exact hend.imp_left fun heq => by rw [heq]
  refine ByteArray.ext (Array.toList_inj.mp ?_)
  rw [scan, htake, List.toList_data_toByteArray, ByteArray.data_extract, Array.toList_extract,
    List.extract_eq_take_drop]

/-! ## The text of the bytes -/

theorem fromUTF8?_eq_none {bytes : ByteArray} :
    String.fromUTF8? bytes = none ↔ ¬ bytes.IsValidUTF8 := by
  rw [String.fromUTF8?]
  split
  · next h => exact iff_of_false (fun h => by cases h) (fun hnot => hnot h)
  · next h => exact iff_of_true rfl h

/-- A text is read if the bytes that a plain scan finds are its encoding. -/
theorem textAt_eq_ok {text : String} :
    textAt heap offset = .ok text ↔ offset ≤ heap.size ∧ text.toUTF8 = scan heap offset := by
  by_cases hlt : heap.size < offset
  · rw [textAt, if_pos hlt]
    exact iff_of_false (fun h => by cases h) (fun h => Nat.not_lt.mpr h.1 hlt)
  · have hle : offset ≤ heap.size := Nat.le_of_not_lt hlt
    rw [textAt, if_neg hlt, extract_textEnd hle, ← fromUTF8?_eq_some]
    cases String.fromUTF8? (scan heap offset) with
    | none => simp
    | some found => simp [hle]

/-- Bytes that are no encoding are refused, all of them together. -/
theorem textAt_eq_invalidText :
    textAt heap offset = .error (.invalidText offset) ↔
      offset ≤ heap.size ∧ ¬ (scan heap offset).IsValidUTF8 := by
  by_cases hlt : heap.size < offset
  · rw [textAt, if_pos hlt]
    exact iff_of_false (fun h => by cases h) (fun h => Nat.not_lt.mpr h.1 hlt)
  · have hle : offset ≤ heap.size := Nat.le_of_not_lt hlt
    rw [textAt, if_neg hlt, extract_textEnd hle, ← fromUTF8?_eq_none]
    cases String.fromUTF8? (scan heap offset) with
    | none => simp [hle]
    | some found => simp

/-- An offset is refused if it lies past the end of the heap, and not at the end. -/
theorem textAt_eq_textOutOfRange :
    textAt heap offset = .error (.textOutOfRange offset heap.size) ↔ heap.size < offset := by
  rw [textAt]
  split
  · next hlt => exact iff_of_true rfl hlt
  · next hge =>
    refine iff_of_false (fun h => ?_) hge
    split at h <;> cases h

/-! ## The turns of the search -/

/-- Where a chunk ends: at its full length, or at the end of the heap. -/
def chunkStop (heap : ByteArray) (cursor : Nat) : Nat :=
  min (cursor + chunkSize) heap.size

/-- The search that goes on at `cursor` looks at the chunks that start at these places,
and ends at `stop`: at a zero byte, or where the heap cuts the last chunk short. -/
inductive Search (heap : ByteArray) : Nat → List Nat → Nat → Prop where
  | zero {cursor stop : Nat} :
    zeroByte? heap cursor (chunkStop heap cursor) = some stop → Search heap cursor [cursor] stop
  | short {cursor : Nat} :
    zeroByte? heap cursor (chunkStop heap cursor) = none →
      chunkStop heap cursor - cursor < chunkSize →
        Search heap cursor [cursor] (chunkStop heap cursor)
  | next {cursor stop : Nat} {starts : List Nat} :
    zeroByte? heap cursor (chunkStop heap cursor) = none →
      chunkSize ≤ chunkStop heap cursor - cursor →
        Search heap (chunkStop heap cursor) starts stop →
          Search heap cursor (cursor :: starts) stop

/-- The search ends, wherever it starts, and finds the end of the text. -/
theorem exists_search (heap : ByteArray) (cursor : Nat) :
    ∃ starts, Search heap cursor starts (textEnd heap cursor) := by
  fun_induction textEnd heap cursor with
  | case1 cursor _ found hfound => exact ⟨_, .zero hfound⟩
  | case2 cursor _ hnone hshort => exact ⟨_, .short hnone hshort⟩
  | case3 cursor _ hnone hfull ih =>
    obtain ⟨starts, hsearch⟩ := ih
    exact ⟨_, .next hnone (Nat.le_of_not_lt hfull) hsearch⟩

/-- A full chunk ends a chunk further on. -/
theorem chunkStop_of_full {cursor : Nat} (h : chunkSize ≤ chunkStop heap cursor - cursor) :
    chunkStop heap cursor = cursor + chunkSize := by
  simp only [chunkStop, chunkSize] at h ⊢
  omega

/-- A search from inside the heap ends inside it. -/
theorem Search.stop_mem {cursor stop : Nat} {starts : List Nat}
    (h : Search heap cursor starts stop) (hle : cursor ≤ heap.size) :
    cursor ≤ stop ∧ stop ≤ heap.size := by
  induction h with
  | @zero cursor stop hzero =>
    obtain ⟨hstart, hlt, -, -⟩ := zeroByte?_eq_some hzero
    have hstop : chunkStop heap cursor ≤ heap.size := Nat.min_le_right _ _
    omega
  | @short cursor _ _ =>
    simp only [chunkStop]
    omega
  | @next cursor stop _ _ hfull _ ih =>
    have hnext := chunkStop_of_full hfull
    have hstop : chunkStop heap cursor ≤ heap.size := Nat.min_le_right _ _
    obtain ⟨hstart, hend⟩ := ih hstop
    omega

/-- The chunks of a search from inside the heap lie inside it. -/
theorem Search.chunk_mem {cursor stop : Nat} {starts : List Nat}
    (h : Search heap cursor starts stop) (hle : cursor ≤ heap.size) :
    ∀ start ∈ starts, start ≤ chunkStop heap start ∧ chunkStop heap start ≤ heap.size := by
  have hchunk : ∀ start ≤ heap.size,
      start ≤ chunkStop heap start ∧ chunkStop heap start ≤ heap.size := by
    intro start hstart
    simp only [chunkStop]
    omega
  induction h with
  | zero _ => exact List.forall_mem_singleton.mpr (hchunk _ hle)
  | short _ _ => exact List.forall_mem_singleton.mpr (hchunk _ hle)
  | next _ _ _ ih => exact List.forall_mem_cons.mpr ⟨hchunk _ hle, ih (hchunk _ hle).2⟩

/-- The chunks of a search stand one after another, a chunk for each 32 bytes of the text
and one more, in which the text ends. -/
theorem Search.starts_eq {cursor stop : Nat} {starts : List Nat}
    (h : Search heap cursor starts stop) (hle : cursor ≤ heap.size) :
    starts = List.range' cursor ((stop - cursor) / chunkSize + 1) chunkSize := by
  induction h with
  | @zero cursor stop hzero =>
    obtain ⟨-, hlt, -, -⟩ := zeroByte?_eq_some hzero
    have hshort : stop - cursor < chunkSize := by
      simp only [chunkStop, chunkSize] at hlt ⊢
      omega
    rw [Nat.div_eq_of_lt hshort]
    rfl
  | short _ hshort =>
    rw [Nat.div_eq_of_lt hshort]
    rfl
  | @next cursor stop starts _ hfull hsearch ih =>
    have hnext := chunkStop_of_full hfull
    have hstop : chunkStop heap cursor ≤ heap.size := Nat.min_le_right _ _
    obtain ⟨hend, -⟩ := hsearch.stop_mem hstop
    -- The text goes on for the whole chunk, which is one of those that are counted.
    have hcount : (stop - cursor) / chunkSize = (stop - chunkStop heap cursor) / chunkSize + 1 := by
      rw [hnext] at hend ⊢
      rw [← Nat.add_div_right _ (by decide : 0 < chunkSize)]
      congr 1
      omega
    rw [hcount, List.range'_succ, ← hnext, ← ih hstop]

/-- **Texts are read as by a plain scan.** At any offset of any heap, past the end of the
heap there is none; else the text is that of the bytes up to the first zero byte or the
end of the heap, and there is none if they are, as a whole, not valid. The search for
their end comes to an end after one chunk for every 32 of them and one more, and all that
it takes from the heap lies inside. -/
theorem textAt_eq_scan (heap : ByteArray) (offset : Nat) :
    (textAt heap offset = .error (.textOutOfRange offset heap.size) ↔ heap.size < offset) ∧
    (∀ text, textAt heap offset = .ok text ↔
      offset ≤ heap.size ∧ text.toUTF8 = scan heap offset) ∧
    (textAt heap offset = .error (.invalidText offset) ↔
      offset ≤ heap.size ∧ ¬ (scan heap offset).IsValidUTF8) ∧
    (offset ≤ heap.size →
      (∃ starts, Search heap offset starts (textEnd heap offset) ∧
        starts = List.range' offset ((textEnd heap offset - offset) / chunkSize + 1) chunkSize ∧
        ∀ start ∈ starts, start ≤ chunkStop heap start ∧ chunkStop heap start ≤ heap.size) ∧
      offset ≤ textEnd heap offset ∧ textEnd heap offset ≤ heap.size ∧
      heap.extract offset (textEnd heap offset) = scan heap offset) := by
  refine ⟨textAt_eq_textOutOfRange, fun text => textAt_eq_ok, textAt_eq_invalidText, ?_⟩
  intro hle
  obtain ⟨starts, hsearch⟩ := exists_search heap offset
  obtain ⟨hstart, hstop⟩ := hsearch.stop_mem hle
  exact ⟨⟨starts, hsearch, hsearch.starts_eq hle, hsearch.chunk_mem hle⟩, hstart, hstop,
    extract_textEnd hle⟩

/-- Two chunks of text from offset 1, with a character across their border, up to the end
of the heap. -/
def straddlingHeap : ByteArray :=
  [0].toByteArray ++ (String.ofList (.replicate 31 'x' ++ 'é' :: .replicate 31 'y')).toUTF8

/-- The text is read up to the end of the heap, and an empty chunk ends the search. -/
theorem textAt_eq_scan_straddlingHeap :
    1 ≤ straddlingHeap.size ∧
      textAt straddlingHeap 1 = .ok (String.ofList (.replicate 31 'x' ++ 'é' :: .replicate 31 'y')) ∧
      ∃ starts, Search straddlingHeap 1 starts 65 ∧ starts = [1, 33, 65] ∧
        ∀ start ∈ starts, start ≤ chunkStop straddlingHeap start ∧
          chunkStop straddlingHeap start ≤ straddlingHeap.size := by
  have hle : 1 ≤ straddlingHeap.size := by decide +kernel
  have hend : textEnd straddlingHeap 1 = 65 := by decide +kernel
  obtain ⟨-, hok, -, hloop⟩ := textAt_eq_scan straddlingHeap 1
  obtain ⟨⟨starts, hsearch, hstarts, hinside⟩, -⟩ := hloop hle
  rw [hend] at hsearch hstarts
  exact ⟨hle, (hok _).mpr ⟨hle, by decide +kernel⟩, starts, hsearch, hstarts, hinside⟩

end FlatTree.Heap
