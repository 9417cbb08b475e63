import FlatTree.Build.Runs
import FlatTree.Proofs.Buffer.Tiling
import FlatTree.Proofs.Buffer.Word

/-!
# Runs read back

The tags of a list of types are compressed stretch by stretch, and a walk over
the compressed tags meets one block for every run and one for every slot that
is in none.

- `StandsAt`: words stand one after another.
- `stretchInduction`: a list is a stretch of one member, and then a list that
  does not go on with it. Everything about runs is proved along that.
- `RunPolicy.compress_append`: lists of types may be compressed piece by piece.
- `RunPolicy.blocks`: the blocks as which a list of types is laid out.
- `RunPolicy.toList_compress`: a walk over compressed tags meets just those, if half a
  word can count the types.
- `RunPolicy.places_blocks`: expanded, they are the types in order, slot by slot.
-/

namespace FlatTree

/-! ## Words in place -/

/-- Members of a list stand in places from `start` on, one after another. -/
def StandsAt {α : Type} (holds : Nat → α → Prop) (start : Nat) (members : List α) : Prop :=
  ∀ i a, members[i]? = some a → holds (start + i) a

namespace StandsAt

variable {α : Type} {holds other : Nat → α → Prop} {start : Nat} {members more : List α}

theorem nil : StandsAt holds start [] := by
  intro i a h
  cases h

theorem singleton {a : α} (h : holds start a) : StandsAt holds start [a] := by
  intro i b hb
  cases i with
  | zero =>
    cases hb
    exact h
  | succ i => cases hb

theorem left (h : StandsAt holds start (members ++ more)) : StandsAt holds start members := by
  intro i a ha
  refine h i a ?_
  rw [List.getElem?_append_left (List.getElem?_eq_some_iff.mp ha).1, ha]

theorem right (h : StandsAt holds start (members ++ more)) :
    StandsAt holds (start + members.length) more := by
  intro i a ha
  rw [Nat.add_assoc]
  refine h (members.length + i) a ?_
  rw [List.getElem?_append_right (Nat.le_add_right _ _), Nat.add_sub_cancel_left, ha]

theorem append (h : StandsAt holds start members)
    (hmore : StandsAt holds (start + members.length) more) :
    StandsAt holds start (members ++ more) := by
  intro i a ha
  by_cases hi : i < members.length
  · rw [List.getElem?_append_left hi] at ha
    exact h i a ha
  · have hle : members.length ≤ i := Nat.le_of_not_lt hi
    rw [List.getElem?_append_right hle] at ha
    have := hmore (i - members.length) a ha
    rwa [Nat.add_assoc, Nat.add_sub_cancel' hle] at this

/-- What stands in place stays if those places keep what they hold. -/
theorem mono (h : StandsAt holds start members)
    (hkeep : ∀ place a, start ≤ place → place < start + members.length → holds place a →
      other place a) : StandsAt other start members := by
  intro i a ha
  have hi := (List.getElem?_eq_some_iff.mp ha).1
  exact hkeep (start + i) a (Nat.le_add_right _ _) (Nat.add_lt_add_left hi _) (h i a ha)

end StandsAt

/-! ## Stretches -/

section Stretch

variable {α : Type} [DecidableEq α]

/-- A list that is not empty starts with a longest stretch. -/
theorem exists_stretch (a : α) :
    ∀ rest : List α, ∃ n later, rest = List.replicate n a ++ later ∧ later.head? ≠ some a
  | [] => ⟨0, [], rfl, by simp⟩
  | b :: rest => by
    by_cases h : b = a
    · subst h
      obtain ⟨n, later, rfl, hlater⟩ := exists_stretch b rest
      exact ⟨n + 1, later, rfl, hlater⟩
    · exact ⟨0, b :: rest, rfl, by simpa using h⟩

/-- Induction along the longest stretches of a list. -/
theorem stretchInduction {motive : List α → Prop} (nil : motive [])
    (stretch : ∀ (a : α) (n : Nat) (later : List α), later.head? ≠ some a → motive later →
      motive (List.replicate (n + 1) a ++ later)) :
    ∀ members : List α, motive members
  | [] => nil
  | a :: rest => by
    obtain ⟨n, later, hrest, hlater⟩ := exists_stretch a rest
    have hless : later.length < (a :: rest).length := by
      rw [hrest, List.length_cons, List.length_append]
      omega
    rw [hrest]
    exact stretch a n later hlater (stretchInduction nil stretch later)
termination_by members => members.length

theorem takeWhile_stretch {a : α} {n : Nat} {later : List α} (h : later.head? ≠ some a) :
    (List.replicate n a ++ later).takeWhile (· == a) = List.replicate n a := by
  rw [List.takeWhile_append_of_pos (by simp)]
  cases later with
  | nil => simp
  | cons b rest =>
    have hb : ¬ (b == a) = true := by simpa using h
    rw [List.takeWhile_cons_of_neg (p := (· == a)) hb, List.append_nil]

end Stretch

theorem SlotType.code_injective {type other : SlotType} (h : type.code = other.code) :
    type = other := by
  have hsome := SlotType.ofCode?_code type
  rw [h, SlotType.ofCode?_code] at hsome
  exact (Option.some.inj hsome).symm

/-- The codes after a stretch of a type do not go on with it. -/
theorem head?_map_code_ne {type : SlotType} {later : List SlotType}
    (h : later.head? ≠ some type) : (later.map SlotType.code).head? ≠ some type.code := by
  rw [List.head?_map]
  intro hcode
  obtain ⟨other, hother, hcode⟩ := Option.map_eq_some_iff.mp hcode
  exact h (by rw [hother, SlotType.code_injective hcode])

namespace RunPolicy

variable {policy : RunPolicy}

/-- A run has room for its length word. -/
def Valid (policy : RunPolicy) : Prop :=
  ∀ minimum, policy.minimum = some minimum → 2 ≤ minimum

theorem valid_some {minimum : Nat} {expressions : Bool} (h : 2 ≤ minimum) :
    Valid ⟨some minimum, expressions⟩ := by
  intro other hother
  cases hother
  exact h

theorem compress_stretch {code : UInt64} {n : Nat} {later : List UInt64}
    (h : later.head? ≠ some code) :
    policy.compress (List.replicate (n + 1) code ++ later) =
      policy.stretch code (n + 1) ++ policy.compress later := by
  rw [List.replicate_succ, List.cons_append, compress, takeWhile_stretch h,
    List.length_replicate, List.drop_left' List.length_replicate]

/-- Only stretches of two or more become runs. -/
theorem two_le_of_makesRun (hvalid : policy.Valid) {code : UInt64} {length : Nat}
    (h : policy.makesRun code length = true) : 2 ≤ length := by
  rw [makesRun] at h
  split at h
  · cases h
  · next minimum hminimum =>
    have := hvalid minimum hminimum
    simp only [Bool.and_eq_true, decide_eq_true_eq] at h
    omega

theorem length_stretch (hvalid : policy.Valid) (code : UInt64) (length : Nat) :
    (policy.stretch code length).length = length := by
  rw [stretch]
  split
  · next hrun =>
    have := two_le_of_makesRun hvalid hrun
    simp only [List.length_cons, List.length_replicate]
    omega
  · exact List.length_replicate

/-- Compressed tags take as many slots as the types they stand for. -/
theorem length_compress (hvalid : policy.Valid) (codes : List UInt64) :
    (policy.compress codes).length = codes.length := by
  induction codes using stretchInduction with
  | nil =>
    rw [compress]
  | stretch code n later hlater ih =>
    -- The slots that the length word saves are filled up again.
    rw [compress_stretch hlater, List.length_append, ih, length_stretch hvalid,
      List.length_append, List.length_replicate]

/-- A code of which no stretch becomes a run. -/
def NeverRuns (policy : RunPolicy) (code : UInt64) : Prop :=
  ∀ length, policy.makesRun code length = false

theorem stretch_of_neverRuns {code : UInt64} (h : policy.NeverRuns code) (length : Nat) :
    policy.stretch code length = List.replicate length code := by
  rw [stretch, if_neg (by rw [h length]; decide)]

/-- Codes are compressed piece by piece if no run goes on from one piece into the
next. -/
theorem compress_append {before : List UInt64} :
    ∀ {after : List UInt64},
      (∀ code, before.getLast? = some code → after.head? = some code → policy.NeverRuns code) →
        policy.compress (before ++ after) = policy.compress before ++ policy.compress after := by
  induction before using stretchInduction with
  | nil =>
    intro after _
    rw [compress]
    rfl
  | stretch code n later hlater ih =>
    intro after hjoin
    rw [List.append_assoc]
    cases later with
    | cons first rest =>
      -- The join is that of the stretches still to come.
      have hlast : (List.replicate (n + 1) code ++ first :: rest).getLast? =
          (first :: rest).getLast? := by
        rw [List.getLast?_append, List.getLast?_cons]
        rfl
      rw [hlast] at hjoin
      have hlater' : ((first :: rest) ++ after).head? ≠ some code := hlater
      rw [compress_stretch hlater, compress_stretch hlater', ih hjoin, List.append_assoc]
    | nil =>
      -- The stretch ends with the piece, and may go on in the next one.
      obtain ⟨m, more, rfl, hmore⟩ := exists_stretch code after
      have hcompress : policy.compress (List.replicate (n + 1) code ++ []) =
          policy.stretch code (n + 1) := by
        rw [compress_stretch hlater, compress, List.append_nil]
      rw [hcompress, List.nil_append]
      cases m with
      | zero => exact compress_stretch hmore
      | succ m =>
        -- The stretch goes on, so it stays slot by slot on both sides.
        have hnever : policy.NeverRuns code := hjoin code (by simp [List.getLast?_replicate]) rfl
        rw [← List.append_assoc, List.replicate_append_replicate,
          show n + 1 + (m + 1) = n + 1 + m + 1 from rfl, compress_stretch hmore,
          compress_stretch hmore, stretch_of_neverRuns hnever, stretch_of_neverRuns hnever,
          stretch_of_neverRuns hnever, ← List.append_assoc, List.replicate_append_replicate]
        rfl

/-! ## The blocks of a list of types -/

/-- The blocks of a stretch of one type: one run, or slot by slot. -/
def stretchBlocks (policy : RunPolicy) (type : SlotType) (start length : Nat) : List Block :=
  if policy.makesRun type.code length then [⟨type, ⟨start, start + length⟩⟩]
  else (List.range' start length).map fun slot => ⟨type, ⟨slot, slot + 1⟩⟩

/-- The blocks as which types are laid out from a slot on, stretch by stretch. -/
def blocks (policy : RunPolicy) (start : Nat) : List SlotType → List Block
  | [] => []
  | type :: rest =>
    let same := rest.takeWhile (· == type)
    policy.stretchBlocks type start (same.length + 1) ++
      blocks policy (start + (same.length + 1)) (rest.drop same.length)
termination_by types => types.length
decreasing_by simp only [List.length_cons, List.length_drop]; omega

theorem blocks_stretch {type : SlotType} {n start : Nat} {later : List SlotType}
    (h : later.head? ≠ some type) :
    policy.blocks start (List.replicate (n + 1) type ++ later) =
      policy.stretchBlocks type start (n + 1) ++ policy.blocks (start + (n + 1)) later := by
  rw [List.replicate_succ, List.cons_append, blocks, takeWhile_stretch h,
    List.length_replicate, List.drop_left' List.length_replicate]

theorem zipIdx_replicate (type : SlotType) :
    ∀ n start : Nat, (List.replicate n type).zipIdx start =
      (List.range' start n).map fun slot => (type, slot)
  | 0, _ => rfl
  | n + 1, start => by
    rw [List.replicate_succ, List.zipIdx_cons, zipIdx_replicate type n (start + 1),
      List.range'_succ, List.map_cons]

/-- The places of a run are those of a stretch of its type. -/
theorem places_run (type : SlotType) (start length : Nat) :
    Block.places ⟨type, ⟨start, start + length⟩⟩ = (List.replicate length type).zipIdx start := by
  rw [zipIdx_replicate, Block.places, SlotRange.toList, SlotRange.size, Nat.add_sub_cancel_left]

/-- Slot by slot, the places are those of a stretch as well. -/
theorem places_singles (type : SlotType) (start length : Nat) :
    ((List.range' start length).map fun slot => (⟨type, ⟨slot, slot + 1⟩⟩ : Block)).flatMap
      Block.places = (List.replicate length type).zipIdx start := by
  rw [zipIdx_replicate, List.flatMap_map, List.map_eq_flatMap]
  simp only [places_run, List.replicate_one, List.zipIdx_singleton]

theorem places_stretchBlocks (type : SlotType) (start length : Nat) :
    (policy.stretchBlocks type start length).flatMap Block.places =
      (List.replicate length type).zipIdx start := by
  rw [stretchBlocks]
  split
  · rw [List.flatMap_singleton, places_run]
  · exact places_singles type start length

/-- **Runs lose nothing**: expanded slot by slot, the blocks are the types in
order. -/
theorem places_blocks (start : Nat) (types : List SlotType) :
    (policy.blocks start types).flatMap Block.places = types.zipIdx start := by
  induction types using stretchInduction generalizing start with
  | nil =>
    rw [blocks]
    rfl
  | stretch type n later hlater ih =>
    rw [blocks_stretch hlater, List.flatMap_append, places_stretchBlocks, ih, List.zipIdx_append,
      List.length_replicate]

/-! ## Walking over compressed tags -/

section Walk

variable {r : Regions}

/-- Tag words stand from a slot on. -/
def TagsAt (r : Regions) (start : Nat) (words : List UInt64) : Prop :=
  StandsAt (fun slot word => r.tagWord slot = .ok word) start words

theorem read_single {slot : Nat} {type : SlotType} (h : r.tagWord slot = .ok type.code) :
    Tag.read r slot = .ok (.single type) :=
  Tag.read_eq_ok.mpr (.single h)

/-- A run tag says the length of the run in the low half of a word, and no length below
two. -/
theorem read_run_mod {slot length : Nat} {type : SlotType}
    (htag : r.tagWord slot = .ok (type.code ||| Tag.runBit))
    (hlength : r.tagWord (slot + 1) = .ok length.toUInt64) :
    Tag.read r slot = if length % 2 ^ 32 < 2 then .error (.malformedRun slot .tooShort)
      else .ok (.run type (length % 2 ^ 32)) := by
  -- No code has the bit of a run, and every code is below the mask.
  have hbit : (type.code ||| Tag.runBit) &&& Tag.runBit ≠ 0 := by
    cases type <;> decide
  have hcode : (type.code ||| Tag.runBit) &&& Tag.typeMask = type.code := by
    cases type <;> rfl
  have hmask : (length.toUInt64 &&& Tag.lengthMask).toNat = length % 2 ^ 32 := by
    have hword : length.toUInt64.toNat = length % 2 ^ 64 := UInt64.toNat_ofNat'
    rw [Tag.toNat_and_lengthMask, hword, Nat.mod_mod_of_dvd _ (by decide)]
  rw [Tag.read, htag, ok_bind, if_neg hbit, hcode]
  simp only [SlotType.ofCode?_code, hlength, hmask]
  split <;> rfl

theorem read_run {slot length : Nat} {type : SlotType}
    (htag : r.tagWord slot = .ok (type.code ||| Tag.runBit))
    (hlength : r.tagWord (slot + 1) = .ok length.toUInt64) (hlong : 2 ≤ length)
    (hshort : length < 2 ^ 32) : Tag.read r slot = .ok (.run type length) := by
  rw [read_run_mod htag hlength, Nat.mod_eq_of_lt hshort, if_neg (Nat.not_lt.mpr hlong)]

theorem toList_singles {type : SlotType} {stop : Nat} :
    ∀ {n cursor : Nat}, TagsAt r cursor (List.replicate n type.code) → cursor + n ≤ stop →
      Blocks.toList r ⟨cursor, stop⟩ =
        ((List.range' cursor n).map fun slot => .ok ⟨type, ⟨slot, slot + 1⟩⟩) ++
          Blocks.toList r ⟨cursor + n, stop⟩
  | 0, cursor, _, _ => rfl
  | n + 1, cursor, htags, hfits => by
    have hfirst : r.tagWord cursor = .ok type.code := htags 0 _ rfl
    have hrest : TagsAt r (cursor + 1) (List.replicate n type.code) :=
      @StandsAt.right _ _ cursor [type.code] _ htags
    rw [Blocks.toList_of_read (read_single hfirst) (show cursor + 1 ≤ stop by omega),
      List.range'_succ, List.map_cons, List.cons_append]
    refine congrArg _ ?_
    show Blocks.toList r ⟨cursor + 1, stop⟩ = _
    rw [toList_singles hrest (by omega), Nat.add_assoc, Nat.add_comm 1 n]

theorem toList_stretch {type : SlotType} {length cursor stop : Nat} (hvalid : policy.Valid)
    (htags : TagsAt r cursor (policy.stretch type.code length)) (hfits : cursor + length ≤ stop)
    (hshort : length < 2 ^ 32) :
    Blocks.toList r ⟨cursor, stop⟩ =
      (policy.stretchBlocks type cursor length).map .ok ++
        Blocks.toList r ⟨cursor + length, stop⟩ := by
  rw [stretch] at htags
  rw [stretchBlocks]
  split at htags
  · next hrun =>
    have hlong := two_le_of_makesRun hvalid hrun
    have hread : Tag.read r cursor = .ok (.run type length) :=
      read_run (htags 0 _ rfl) (htags 1 _ rfl) hlong hshort
    rw [if_pos hrun, Blocks.toList_of_read hread hfits]
    rfl
  · next hrun =>
    rw [if_neg hrun, toList_singles htags hfits, List.map_map]
    rfl

/-- The tags of types that start with a stretch are those of the stretch, and then those of
the other types. -/
theorem tagsAt_replicate_append (hvalid : policy.Valid) {start n : Nat} {type : SlotType}
    {later : List SlotType} (hlater : later.head? ≠ some type)
    (htags : TagsAt r start
      (policy.compress ((List.replicate (n + 1) type ++ later).map SlotType.code))) :
    TagsAt r start (policy.stretch type.code (n + 1)) ∧
      TagsAt r (start + (n + 1)) (policy.compress (later.map SlotType.code)) := by
  rw [List.map_append, List.map_replicate, compress_stretch (head?_map_code_ne hlater)] at htags
  have hrest := StandsAt.right htags
  rw [length_stretch hvalid] at hrest
  exact ⟨StandsAt.left htags, hrest⟩

/-- **A walk over compressed tags** meets the blocks of the types that were
compressed, and then goes on. -/
theorem toList_compress (hvalid : policy.Valid) {stop : Nat} (types : List SlotType) :
    ∀ {start : Nat}, TagsAt r start (policy.compress (types.map SlotType.code)) →
      start + types.length ≤ stop → types.length < 2 ^ 32 →
        Blocks.toList r ⟨start, stop⟩ =
          (policy.blocks start types).map .ok ++ Blocks.toList r ⟨start + types.length, stop⟩ := by
  induction types using stretchInduction with
  | nil =>
    intro start _ _ _
    rw [blocks]
    rfl
  | stretch type n later hlater ih =>
    intro start htags hfits hshort
    rw [List.length_append, List.length_replicate] at hfits hshort
    obtain ⟨hfirstTags, hlaterTags⟩ := tagsAt_replicate_append hvalid hlater htags
    rw [toList_stretch hvalid hfirstTags (by omega) (by omega),
      ih hlaterTags (by omega) (by omega), blocks_stretch hlater, List.map_append,
      List.append_assoc, List.length_append, List.length_replicate, Nat.add_assoc]

/-- A walk over all the compressed tags meets the blocks of their types, and no fault. -/
theorem toList_ofRange_compress (hvalid : policy.Valid) {types : List SlotType} {start : Nat}
    (htags : TagsAt r start (policy.compress (types.map SlotType.code)))
    (hshort : types.length < 2 ^ 32) :
    (Blocks.ofRange ⟨start, start + types.length⟩).toList r =
      (policy.blocks start types).map .ok := by
  have hend : Blocks.toList r ⟨start + types.length, start + types.length⟩ = [] :=
    Blocks.toList_of_le (Nat.le_refl _)
  rw [Blocks.ofRange, toList_compress hvalid types htags (Nat.le_refl _) hshort, hend,
    List.append_nil]

theorem mapM_zipIdx_eq_ok :
    ∀ {held : List Slot} {start : Nat},
      StandsAt (fun slot s => Slot.read r s.type slot = .ok s) start held →
        (((held.map Slot.type).zipIdx start).mapM fun place => Slot.read r place.1 place.2) =
          .ok held
  | [], _, _ => rfl
  | s :: held, start, h => by
    have hfirst : Slot.read r s.type start = .ok s := h 0 s rfl
    have hrest : StandsAt (fun slot s => Slot.read r s.type slot = .ok s) (start + 1) held :=
      @StandsAt.right _ _ start [s] _ h
    rw [List.map_cons, List.zipIdx_cons, List.mapM_cons, hfirst, ok_bind,
      mapM_zipIdx_eq_ok hrest]
    rfl

end Walk

end RunPolicy

end FlatTree
