import FlatTree.Build.Tree
import FlatTree.Proofs.Build.LongRuns
import FlatTree.Proofs.Buffer.Heap
import FlatTree.Proofs.Buffer.Layout

/-!
# Expressions stored in a buffer

However a buffer is laid out, of each expression the same is to be shown: that
its record points at its head and at its slots, that the slots hold its
arguments, and that their tags are those of the arguments, compressed.

- `Slot.StoredAs`: the word that stands for what a slot holds.
- `RawBuffer.Stores`: the words of a buffer store an expression.
- `RawBuffer.Small`: all that is counted in a buffer fits where it is counted.
- `RawBuffer.Stores.headOf`, `RawBuffer.Stores.childSlots`: in a small buffer a
  stored expression is read back.
-/

namespace FlatTree

/-- A word stands for what a slot holds. The text of a string or a symbol stands
in the heap, where the word says. -/
def Slot.StoredAs (strings : ByteArray) (word : UInt64) : Slot → Prop
  | .scalar (.bool value) => word = if value then 1 else 0
  | .scalar (.long w) => word = w
  | .scalar (.double bits) => word = bits
  | .scalar (.string text) => ∃ offset, word = offset.toUInt64 ∧ Heap.Holds strings offset text
  | .scalar (.symbol name) => ∃ offset, word = offset.toUInt64 ∧ Heap.Holds strings offset name
  | .expression index => word = index.toUInt64

/-- More texts in the heap do not change what a word stands for. -/
theorem Slot.StoredAs.append {strings : ByteArray} {word : UInt64} {s : Slot}
    (h : s.StoredAs strings word) (more : ByteArray) : s.StoredAs (strings ++ more) word := by
  match s, h with
  | .scalar (.bool _), h => exact h
  | .scalar (.long _), h => exact h
  | .scalar (.double _), h => exact h
  | .scalar (.string _), ⟨offset, hword, h⟩ => exact ⟨offset, hword, h.append more⟩
  | .scalar (.symbol _), ⟨offset, hword, h⟩ => exact ⟨offset, hword, h.append more⟩
  | .expression _, h => exact h

/-! ## Texts that can be stored -/

/-- The heap can hold the text of a scalar, if it has one. -/
def Scalar.Storable : Scalar → Prop
  | .string text => Heap.Storable text
  | .symbol name => Heap.Storable name
  | _ => True

instance : ∀ value : Scalar, Decidable value.Storable
  | .string text => inferInstanceAs (Decidable (Heap.Storable text))
  | .symbol name => inferInstanceAs (Decidable (Heap.Storable name))
  | .bool _ => inferInstanceAs (Decidable True)
  | .long _ => inferInstanceAs (Decidable True)
  | .double _ => inferInstanceAs (Decidable True)

/-- The heap can hold the text of what a slot holds, if it has one. -/
def Slot.Storable : Slot → Prop
  | .scalar value => value.Storable
  | .expression _ => True

namespace Tree

mutual

/-- The heap can hold all heads and texts of a tree. -/
def Storable : Tree → Prop
  | scalar value => value.Storable
  | node head children => Heap.Storable head ∧ AllStorable children

/-- The heap can hold all heads and texts of trees. -/
def AllStorable : List Tree → Prop
  | [] => True
  | child :: rest => Storable child ∧ AllStorable rest

end

theorem AllStorable.of_mem {tree : Tree} :
    ∀ {trees : List Tree}, AllStorable trees → tree ∈ trees → tree.Storable
  | _ :: _, h, hmem => by
    rcases List.mem_cons.mp hmem with rfl | hmem
    · exact h.1
    · exact AllStorable.of_mem h.2 hmem

/-! ## Runs that can be read -/

mutual

/-- The lengths of all runs of a tree can be read back. -/
def Legible (policy : RunPolicy) : Tree → Prop
  | scalar _ => True
  | node _ children => policy.Legible (children.map type) ∧ AllLegible policy children

/-- The lengths of all runs of trees can be read back. -/
def AllLegible (policy : RunPolicy) : List Tree → Prop
  | [] => True
  | child :: rest => Legible policy child ∧ AllLegible policy rest

end

theorem length_le_sizes : ∀ trees : List Tree, trees.length ≤ sizes trees
  | [] => Nat.le_refl _
  | scalar _ :: rest => by
    have hrest := length_le_sizes rest
    simp only [List.length_cons, sizes, size]
    omega
  | node _ _ :: rest => by
    have hrest := length_le_sizes rest
    simp only [List.length_cons, sizes, size]
    omega

mutual

/-- The lengths of all runs are read back if the tree can be counted by half a word. -/
theorem legible_of_size_lt {policy : RunPolicy} (hvalid : policy.Valid) :
    ∀ {tree : Tree}, tree.size < 2 ^ 32 → tree.Legible policy
  | scalar _, _ => trivial
  | node _ children, h => by
    have hlength := length_le_sizes children
    rw [size] at h
    refine ⟨RunPolicy.legible_of_length_lt hvalid ?_, allLegible_of_sizes_lt hvalid (by omega)⟩
    rw [List.length_map]
    omega

theorem allLegible_of_sizes_lt {policy : RunPolicy} (hvalid : policy.Valid) :
    ∀ {trees : List Tree}, sizes trees < 2 ^ 32 → AllLegible policy trees
  | [], _ => trivial
  | child :: rest, h => by
    rw [sizes] at h
    exact ⟨legible_of_size_lt hvalid (by omega), allLegible_of_sizes_lt hvalid (by omega)⟩

end

end Tree

namespace RawBuffer

/-- A scalar brings a text to the heap, or nothing, and its word stands for it. -/
theorem pushScalar_spec (raw : RawBuffer) (value : Scalar) :
    ∃ more word, raw.pushScalar value = ({ raw with strings := raw.strings ++ more }, word) ∧
      (Slot.scalar value).StoredAs (raw.strings ++ more) word := by
  have hnone : raw = { raw with strings := raw.strings ++ .empty } := by
    rw [ByteArray.append_empty]
  cases value with
  | bool value => exact ⟨.empty, _, congrArg (·, _) hnone, rfl⟩
  | long word => exact ⟨.empty, _, congrArg (·, _) hnone, rfl⟩
  | double bits => exact ⟨.empty, _, congrArg (·, _) hnone, rfl⟩
  | string text =>
    exact ⟨textEntry text, raw.nextText, rfl, _, rfl, Heap.holds_append raw.strings text⟩
  | symbol name =>
    exact ⟨textEntry name, raw.nextText, rfl, _, rfl, Heap.holds_append raw.strings name⟩

/-! ## Stored expressions -/

/-- A slot holds something, as a word that stands for it. -/
def SlotHolds (raw : RawBuffer) (slot : Nat) (s : Slot) : Prop :=
  ∃ word, raw.args[slot]? = some word ∧ s.StoredAs raw.strings word

/-- A slot has a tag word. -/
def TagHolds (raw : RawBuffer) (slot : Nat) (word : UInt64) : Prop :=
  raw.tags[slot]? = some word

/-- The words of a buffer store an expression: its record, its head, its
arguments and their tags. -/
structure Stores (raw : RawBuffer) (policy : RunPolicy) (index : Nat) (head : String)
    (start : Nat) (held : List Slot) : Prop where
  record : ∃ offset : Nat, Heap.Holds raw.strings offset head ∧
    raw.exprs[index]? =
      some ⟨offset.toUInt64, start.toUInt64, (start + held.length).toUInt64⟩
  fits : start + held.length ≤ raw.args.size
  args : StandsAt raw.SlotHolds start held
  tags : StandsAt raw.TagHolds start (policy.compress (held.map fun s => s.type.code))

/-- Words have room for the offsets and numbers of a buffer. -/
structure Small (raw : RawBuffer) : Prop where
  args : raw.args.size < 2 ^ 64
  exprs : raw.exprs.size < 2 ^ 64
  strings : raw.strings.size < 2 ^ 64

/-- A buffer in memory is small. -/
theorem small_of_fitsMemory {raw : RawBuffer} {reserved : UInt64 × UInt64}
    (h : FitsMemory (raw.toBytesWith reserved)) : raw.Small := by
  rw [FitsMemory, size_toBytesWith] at h
  simp only [wordSize, recordSize] at h
  exact ⟨by omega, by omega, by omega⟩

/-- An offset at which a text stands can be said by a word. -/
theorem Small.toNat_offset {raw : RawBuffer} (h : raw.Small) {offset : Nat} {text : String}
    (hholds : Heap.Holds raw.strings offset text) : offset.toUInt64.toNat = offset := by
  obtain ⟨before, after, heq, rfl⟩ := hholds
  have hsize := h.strings
  rw [heq, ByteArray.size_append] at hsize
  exact UInt64.toNat_ofNat_of_lt' (show before.size < 2 ^ 64 by omega)

namespace Stores

variable {raw : RawBuffer} {policy : RunPolicy} {index start : Nat} {head : String}
  {held : List Slot}

theorem index_lt (h : raw.Stores policy index head start held) : index < raw.exprs.size := by
  obtain ⟨offset, -, hrecord⟩ := h.record
  exact (Array.getElem?_eq_some_iff.mp hrecord).1

/-- Where the slots can be counted by half a word, the length of each run is read back. -/
theorem legible (h : raw.Stores policy index head start held) (hvalid : policy.Valid)
    (hargs : raw.args.size < 2 ^ 32) : policy.Legible (held.map Slot.type) := by
  have hfits := h.fits
  refine RunPolicy.legible_of_length_lt hvalid ?_
  rw [List.length_map]
  omega

/-- The head of a stored expression is read back. -/
theorem headOf (h : raw.Stores policy index head start held) (hsmall : raw.Small)
    (hhead : Heap.Storable head) : headOf raw.regions index = .ok head := by
  obtain ⟨offset, hholds, hrecord⟩ := h.record
  rw [FlatTree.headOf, expression_regions.mpr hrecord]
  show Decoded.lift (Heap.textAt raw.strings offset.toUInt64.toNat) = .ok head
  rw [hsmall.toNat_offset hholds, hholds.textAt hhead]
  rfl

theorem children (h : raw.Stores policy index head start held)
    (hslots : raw.args.size < 2 ^ 64) :
    raw.regions.children index = .ok ⟨start, start + held.length⟩ := by
  obtain ⟨offset, -, hrecord⟩ := h.record
  have hfits := h.fits
  have hstart : start.toUInt64.toNat = start :=
    UInt64.toNat_ofNat_of_lt' (show start < 2 ^ 64 by omega)
  have hstop : (start + held.length).toUInt64.toNat = start + held.length :=
    UInt64.toNat_ofNat_of_lt' (show start + held.length < 2 ^ 64 by omega)
  -- The slots are counted, so neither end of the range has wrapped around.
  refine Regions.children_eq_ok.mpr ⟨_, expression_regions.mpr hrecord, ?_, ?_, ?_⟩
  · show start.toUInt64.toNat ≤ (start + held.length).toUInt64.toNat
    omega
  · show (start + held.length).toUInt64.toNat ≤ raw.regions.argCount
    rw [hstop, argCount_regions]
    exact hfits
  · rw [hstart, hstop]

/-- What a slot holds is read back. -/
theorem read_of_slotHolds {slot : Nat} {s : Slot} (hsmall : raw.Small) (h : raw.SlotHolds slot s)
    (hs : s.Storable) (hindex : ∀ child, s = .expression child → child < raw.exprs.size) :
    Slot.read raw.regions s.type slot = .ok s := by
  obtain ⟨word, hword, hstored⟩ := h
  rw [Slot.read, argWord_regions.mpr hword, ok_bind]
  match s, hstored, hs with
  | .scalar (.bool value), hstored, _ =>
    cases hstored
    cases value <;> rfl
  | .scalar (.long _), hstored, _ =>
    cases hstored
    rfl
  | .scalar (.double _), hstored, _ =>
    cases hstored
    rfl
  | .scalar (.string text), ⟨offset, hoffset, hholds⟩, hs =>
    show (Heap.textAt raw.strings word.toNat >>= _) = _
    rw [hoffset, hsmall.toNat_offset hholds, hholds.textAt hs]
    rfl
  | .scalar (.symbol name), ⟨offset, hoffset, hholds⟩, hs =>
    show (Heap.textAt raw.strings word.toNat >>= _) = _
    rw [hoffset, hsmall.toNat_offset hholds, hholds.textAt hs]
    rfl
  | .expression child, hstored, _ =>
    have hlt := hindex child rfl
    have hexprs := hsmall.exprs
    have hchild : child.toUInt64.toNat = child :=
      UInt64.toNat_ofNat_of_lt' (show child < 2 ^ 64 by omega)
    cases hstored
    show Except.ok (Slot.expression child.toUInt64.toNat) = _
    rw [hchild]

/-- The tags of a stored expression are those of its arguments, compressed. -/
theorem tagsAt (h : raw.Stores policy index head start held) :
    RunPolicy.TagsAt raw.regions start
      (policy.compress ((held.map Slot.type).map SlotType.code)) := by
  rw [List.map_map]
  exact fun i word hword => tagWord_regions.mpr (h.tags i word hword)

/-- The tags of a stored expression are those of its arguments, slot by slot. -/
theorem expands (h : raw.Stores policy index head start held) (hvalid : policy.Valid)
    (hlegible : policy.Legible (held.map Slot.type)) :
    raw.regions.Expands ⟨start, start + held.length⟩ ((held.map Slot.type).zipIdx start) := by
  have hexpands := RunPolicy.expands_compress hvalid h.tagsAt hlegible
  rwa [List.length_map] at hexpands

/-- A walk over a stored expression gives a slot the type of what it holds, whatever tags
it misses for a run of which the length is not read back. -/
theorem exists_storedAs (h : raw.Stores policy index head start held) (hvalid : policy.Valid)
    {block : Block}
    (hblock : .ok block ∈ (Blocks.ofRange ⟨start, start + held.length⟩).toList raw.regions)
    {place : SlotType × Nat} (hplace : place ∈ block.places) :
    ∃ s ∈ held, ∃ word, s.type = place.1 ∧ raw.args[place.2]? = some word ∧
      s.StoredAs raw.strings word := by
  rw [← List.length_map Slot.type] at hblock
  have hmem := RunPolicy.mem_zipIdx_of_toList_compress hvalid h.tagsAt hblock place hplace
  obtain ⟨type, slot⟩ := place
  obtain ⟨hstart, htype⟩ := List.mk_mem_zipIdx_iff_le_and_getElem?_sub.mp hmem
  rw [List.getElem?_map] at htype
  obtain ⟨s, hs, rfl⟩ := Option.map_eq_some_iff.mp htype
  obtain ⟨word, hword, hstoredAs⟩ := h.args _ s hs
  rw [Nat.add_sub_cancel' hstart] at hword
  exact ⟨s, List.mem_of_getElem? hs, word, rfl, hword, hstoredAs⟩

/-- The arguments of a stored expression are read back. -/
theorem childSlots (h : raw.Stores policy index head start held) (hsmall : raw.Small)
    (hvalid : policy.Valid) (hlegible : policy.Legible (held.map Slot.type))
    (hstorable : ∀ s ∈ held, s.Storable)
    (hindex : ∀ child, .expression child ∈ held → child < raw.exprs.size) :
    raw.regions.childSlots index = .ok held := by
  obtain ⟨blocks, hblocks, hplaces⟩ := h.expands hvalid hlegible
  refine Regions.childSlots_eq_ok.mpr ⟨_, h.children hsmall.args, ?_⟩
  rw [hblocks, Regions.walkSlots_map_ok, hplaces]
  refine RunPolicy.mapM_zipIdx_eq_ok fun i s hs => ?_
  have hmem := List.mem_of_getElem? hs
  exact read_of_slotHolds hsmall (h.args i s hs) (hstorable s hmem)
    fun child heq => hindex child (heq ▸ hmem)

/-- Where the arguments of a stored expression are read, the length of each run is. -/
theorem legible_of_childSlots (h : raw.Stores policy index head start held)
    (hslots : raw.args.size < 2 ^ 64) (hvalid : policy.Valid) {found : List Slot}
    (hfound : raw.regions.childSlots index = .ok found) :
    policy.Legible (held.map Slot.type) := by
  obtain ⟨range, places, hrange, hexpands, -⟩ := Regions.exists_expands_of_childSlots hfound
  rw [h.children hslots] at hrange
  cases hrange
  by_contra hnot
  -- Otherwise the walk breaks off, and a fault is none of its blocks.
  obtain ⟨slot, hfault⟩ := (RunPolicy.breaks_compress hvalid h.tagsAt hnot).exists_error_mem
  rw [List.length_map] at hfault
  exact hexpands.error_not_mem hfault

end Stores

end RawBuffer

end FlatTree
