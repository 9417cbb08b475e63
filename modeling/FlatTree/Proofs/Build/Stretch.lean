import FlatTree.Proofs.Build.Runs

/-!
# Runs are the longest stretches

Compressing goes over a list of types from one stretch to the next, and a run may hide tags
that look like anything. What a walk meets can be said without either: a run for each stretch
that cannot be made longer, if it may be a run and is long enough, and a single tag for each
other slot.

- `IsStretch`: a stretch of equal members that cannot be made longer, by the members around it.
- `isStretch_replicate_append`: the stretches of a list are its first one and those after it.
- `RunPolicy.IsRun`: the stretches that become runs.
- `RunPolicy.mem_blocks`: the blocks of types, by the stretches that they are in.
- `Blocks.tag_of_mem`: each block of a walk comes from the tag that is written at its start.
- `RunPolicy.walk_compress`: a walk over compressed tags, in these terms.
-/

namespace FlatTree

/-! ## Stretches -/

/-- A stretch of a list: `length` members from `first` on are `a`, and neither the member before
them nor the one after them is. -/
structure IsStretch {α : Type} (members : List α) (a : α) (first length : Nat) : Prop where
  pos : 0 < length
  same : ∀ i < length, members[first + i]? = some a
  before : ∀ i, i + 1 = first → members[i]? ≠ some a
  after : members[first + length]? ≠ some a

section Stretch

variable {α : Type} {a b : α} {n first length : Nat} {later : List α}

theorem getElem?_replicate_append_add (i : Nat) :
    (List.replicate n b ++ later)[n + i]? = later[i]? := by
  rw [List.getElem?_append_right (by simp), List.length_replicate, Nat.add_sub_cancel_left]

theorem getElem?_replicate_append_of_lt {i : Nat} (h : i < n) :
    (List.replicate n b ++ later)[i]? = some b := by
  rw [List.getElem?_append_left (by simpa using h), List.getElem?_replicate_of_lt h]

/-- The first members of a list are a stretch if the list does not go on with them. -/
theorem isStretch_first (h : later.head? ≠ some b) :
    IsStretch (List.replicate (n + 1) b ++ later) b 0 (n + 1) where
  pos := Nat.succ_pos n
  same i hi := by
    rw [Nat.zero_add]
    exact getElem?_replicate_append_of_lt hi
  before i hi := absurd hi (Nat.succ_ne_zero i)
  after := by
    rw [Nat.zero_add, ← Nat.add_zero (n + 1), getElem?_replicate_append_add,
      ← List.head?_eq_getElem?]
    exact h

/-- What comes after the first stretch has the same stretches as before, further on. -/
theorem IsStretch.shift (hb : later.head? ≠ some b) (h : IsStretch later a first length) :
    IsStretch (List.replicate (n + 1) b ++ later) a (n + 1 + first) length where
  pos := h.pos
  same i hi := by
    rw [Nat.add_assoc, getElem?_replicate_append_add]
    exact h.same i hi
  before i hi := by
    cases first with
    | zero =>
      -- The member before is the last of the first stretch, which is another member.
      rw [getElem?_replicate_append_of_lt (show i < n + 1 by omega)]
      intro heq
      have hfirst := h.same 0 h.pos
      rw [Nat.add_zero, ← List.head?_eq_getElem?] at hfirst
      exact hb (hfirst.trans heq.symm)
    | succ k =>
      rw [show i = n + 1 + k by omega, getElem?_replicate_append_add]
      exact h.before k rfl
  after := by
    rw [Nat.add_assoc, getElem?_replicate_append_add]
    exact h.after

/-- A stretch that starts in the first one is all of it. -/
theorem IsStretch.eq_first (hb : later.head? ≠ some b) (hfirst : first < n + 1)
    (h : IsStretch (List.replicate (n + 1) b ++ later) a first length) :
    a = b ∧ first = 0 ∧ length = n + 1 := by
  have hstart : (List.replicate (n + 1) b ++ later)[first]? = some a := h.same 0 h.pos
  rw [getElem?_replicate_append_of_lt hfirst] at hstart
  cases hstart
  have hzero : first = 0 := by
    cases first with
    | zero => rfl
    | succ k =>
      exact absurd (getElem?_replicate_append_of_lt (by omega)) (h.before k rfl)
  subst hzero
  have hlong : ¬ length < n + 1 := by
    intro hlt
    refine h.after ?_
    rw [Nat.zero_add]
    exact getElem?_replicate_append_of_lt hlt
  have hshort : ¬ n + 1 < length := by
    intro hlt
    have hnext := h.same (n + 1) hlt
    rw [Nat.zero_add, ← Nat.add_zero (n + 1), getElem?_replicate_append_add,
      ← List.head?_eq_getElem?] at hnext
    exact hb hnext
  exact ⟨rfl, rfl, by omega⟩

/-- A stretch that starts after the first one is a stretch of what comes there. -/
theorem IsStretch.unshift
    (h : IsStretch (List.replicate (n + 1) b ++ later) a (n + 1 + first) length) :
    IsStretch later a first length where
  pos := h.pos
  same i hi := by
    rw [← getElem?_replicate_append_add (n := n + 1) (b := b), ← Nat.add_assoc]
    exact h.same i hi
  before i hi := by
    rw [← getElem?_replicate_append_add (n := n + 1) (b := b)]
    exact h.before _ (by omega)
  after := by
    rw [← getElem?_replicate_append_add (n := n + 1) (b := b), ← Nat.add_assoc]
    exact h.after

/-- **The stretches of a list** are its first one and those of what comes after it. -/
theorem isStretch_replicate_append (hb : later.head? ≠ some b) :
    IsStretch (List.replicate (n + 1) b ++ later) a first length ↔
      (a = b ∧ first = 0 ∧ length = n + 1) ∨
        ∃ k, first = n + 1 + k ∧ IsStretch later a k length := by
  constructor
  · intro h
    by_cases hfirst : first < n + 1
    · exact .inl (h.eq_first hb hfirst)
    · obtain ⟨k, rfl⟩ := Nat.exists_eq_add_of_le (Nat.le_of_not_lt hfirst)
      exact .inr ⟨k, rfl, h.unshift⟩
  · rintro (⟨rfl, rfl, rfl⟩ | ⟨k, rfl, h⟩)
    · exact isStretch_first hb
    · exact h.shift hb

end Stretch

/-! ## Blocks by stretches -/

namespace RunPolicy

variable {policy : RunPolicy} {types : List SlotType} {type : SlotType} {first length start : Nat}

/-- A stretch of types that becomes a run: runs are made at all, it has the least length of one
at least, and its members are no expressions unless these may be in runs too. -/
structure IsRun (policy : RunPolicy) (types : List SlotType) (type : SlotType)
    (first length : Nat) : Prop where
  stretch : IsStretch types type first length
  long : ∃ minimum, policy.minimum = some minimum ∧ minimum ≤ length
  eligible : type = .expression → policy.expressions = true

theorem makesRun_code :
    policy.makesRun type.code length = true ↔
      (∃ minimum, policy.minimum = some minimum ∧ minimum ≤ length) ∧
        (type = .expression → policy.expressions = true) := by
  have hcode : (type.code != SlotType.expression.code) = true ↔ type ≠ .expression := by
    cases type <;> decide
  rw [makesRun]
  cases policy.minimum with
  | none => simp
  | some minimum =>
    simp only [Bool.and_eq_true, Bool.or_eq_true, decide_eq_true_eq, hcode, Option.some.injEq,
      exists_eq_left']
    tauto

theorem isRun_iff :
    policy.IsRun types type first length ↔
      IsStretch types type first length ∧ policy.makesRun type.code length = true := by
  rw [makesRun_code]
  exact ⟨fun h => ⟨h.stretch, h.long, h.eligible⟩, fun ⟨h, hlong, helig⟩ => ⟨h, hlong, helig⟩⟩

/-- A block of a stretch is all of it, or a slot of it, depending on whether it becomes a run. -/
theorem mem_stretchBlocks {block : Block} :
    block ∈ policy.stretchBlocks type start length ↔
      block.type = type ∧
        (policy.makesRun type.code length = true ∧ block.slots = ⟨start, start + length⟩ ∨
          policy.makesRun type.code length = false ∧
            ∃ i < length, block.slots = ⟨start + i, start + i + 1⟩) := by
  obtain ⟨blockType, slots⟩ := block
  rw [stretchBlocks]
  cases policy.makesRun type.code length with
  | true => simp
  | false =>
    simp only [Bool.false_eq_true, if_false, List.mem_map, List.mem_range'_1, Block.mk.injEq,
      false_and, true_and, false_or]
    constructor
    · rintro ⟨slot, ⟨hle, hlt⟩, rfl, rfl⟩
      exact ⟨rfl, slot - start, by omega, by congr 1 <;> omega⟩
    · rintro ⟨rfl, i, hi, rfl⟩
      exact ⟨start + i, ⟨Nat.le_add_right _ _, by omega⟩, rfl, rfl⟩

/-- **The blocks of types** are the stretches that become runs, and the slots of the others. -/
theorem mem_blocks {block : Block} :
    block ∈ policy.blocks start types ↔
      ∃ first length, IsStretch types block.type first length ∧
        (policy.makesRun block.type.code length = true ∧
            block.slots = ⟨start + first, start + first + length⟩ ∨
          policy.makesRun block.type.code length = false ∧
            ∃ i < length, block.slots = ⟨start + first + i, start + first + i + 1⟩) := by
  induction types using stretchInduction generalizing start with
  | nil =>
    rw [blocks]
    refine iff_of_false List.not_mem_nil ?_
    rintro ⟨first, length, h, -⟩
    cases h.same 0 h.pos
  | stretch type n later hlater ih =>
    rw [blocks_stretch hlater, List.mem_append, mem_stretchBlocks, ih]
    simp only [isStretch_replicate_append hlater]
    constructor
    · rintro (⟨rfl, h⟩ | ⟨first, length, hstretch, h⟩)
      · exact ⟨0, n + 1, .inl ⟨rfl, rfl, rfl⟩, h⟩
      · rw [Nat.add_assoc start] at h
        exact ⟨n + 1 + first, length, .inr ⟨first, rfl, hstretch⟩, h⟩
    · rintro ⟨first, length, ⟨rfl, rfl, rfl⟩ | ⟨k, rfl, hstretch⟩, h⟩
      · exact .inl ⟨rfl, h⟩
      · rw [← Nat.add_assoc start] at h
        exact .inr ⟨k, length, hstretch, h⟩

end RunPolicy

/-! ## Walks -/

/-- A block of a walk comes from the tag that is written where it starts. -/
theorem Blocks.exists_tag_of_mem {r : Regions} {b : Blocks} {block : Block}
    (h : .ok block ∈ b.toList r) :
    ∃ tag, Tag.read r block.slots.start = .ok tag ∧ block.type = tag.type ∧
      block.slots.size = tag.span := by
  fun_induction Blocks.toList r b with
  | case1 b hnext => cases h
  | case2 b item rest hnext ih =>
    rcases List.mem_cons.mp h with rfl | hrest
    · rcases next_cases r b with ⟨-, hnone⟩ | ⟨-, tag, hwritten, -, htag⟩ | ⟨-, -, fault, hfault⟩
      · rw [hnone] at hnext
        cases hnext
      · rw [htag] at hnext
        cases hnext
        exact ⟨tag, Tag.read_eq_ok.mpr hwritten, rfl, Nat.add_sub_cancel_left _ _⟩
      · rw [hfault] at hnext
        cases hnext
    · exact ih hrest

/-- A block of a walk has the span of its tag, so just the blocks of one slot have single tags. -/
theorem Blocks.tag_of_mem {r : Regions} {b : Blocks} {block : Block}
    (h : .ok block ∈ b.toList r) :
    Tag.read r block.slots.start = .ok (.run block.type block.slots.size) ∧
        2 ≤ block.slots.size ∨
      Tag.read r block.slots.start = .ok (.single block.type) ∧ block.slots.size = 1 := by
  obtain ⟨tag, hread, htype, hsize⟩ := Blocks.exists_tag_of_mem h
  rw [htype, hsize]
  cases tag with
  | single type => exact .inr ⟨hread, rfl⟩
  | run type length =>
    cases Tag.read_eq_ok.mp hread with
    | run _ _ _ _ htwo => exact .inl ⟨hread, htwo⟩

namespace RunPolicy

variable {policy : RunPolicy} {r : Regions} {types : List SlotType} {start : Nat}

/-- **Runs of tags are read back.** Wherever the compressed tags of types stand in a buffer, they
take one slot for each type, and a walk over just these slots meets no fault. Its blocks expand
to the types in order. Run tags are written for the longest stretches that may be runs and are
long enough, and for nothing else; every other block has one slot and a tag of its own. -/
theorem walk_compress (hvalid : policy.Valid) (hshort : types.length < 2 ^ 32)
    (htags : TagsAt r start (policy.compress (types.map SlotType.code))) :
    (policy.compress (types.map SlotType.code)).length = types.length ∧
    ∃ blocks : List Block,
      (Blocks.ofRange ⟨start, start + types.length⟩).toList r = blocks.map .ok ∧
      blocks.flatMap Block.places = types.zipIdx start ∧
      (∀ block, block ∈ blocks ∧
          Tag.read r block.slots.start = .ok (.run block.type block.slots.size) ↔
        ∃ first length, policy.IsRun types block.type first length ∧
          block.slots = ⟨start + first, start + first + length⟩) ∧
      ∀ block ∈ blocks, Tag.read r block.slots.start = .ok (.run block.type block.slots.size) ∨
        Tag.read r block.slots.start = .ok (.single block.type) ∧ block.slots.size = 1 := by
  have hwalk := toList_ofRange_compress hvalid htags hshort
  have htag {block : Block} (hblock : block ∈ policy.blocks start types) :=
    Blocks.tag_of_mem (b := Blocks.ofRange ⟨start, start + types.length⟩)
      (hwalk ▸ List.mem_map_of_mem hblock)
  refine ⟨by rw [length_compress hvalid, List.length_map], policy.blocks start types, hwalk,
    places_blocks start types, fun block => ?_, fun block hblock =>
      (htag hblock).imp_left And.left⟩
  constructor
  · rintro ⟨hblock, hread⟩
    obtain ⟨first, length, hstretch, ⟨hrun, hslots⟩ | ⟨-, i, -, hslots⟩⟩ := mem_blocks.mp hblock
    · exact ⟨first, length, isRun_iff.mpr ⟨hstretch, hrun⟩, hslots⟩
    · rcases htag hblock with ⟨-, htwo⟩ | ⟨hsingle, -⟩
      · rw [hslots, SlotRange.size] at htwo
        dsimp only at htwo
        omega
      · rw [hread] at hsingle
        cases hsingle
  · rintro ⟨first, length, hrun, hslots⟩
    obtain ⟨hstretch, hmakes⟩ := isRun_iff.mp hrun
    have hblock := mem_blocks.mpr ⟨first, length, hstretch, .inl ⟨hmakes, hslots⟩⟩
    have hlong := two_le_of_makesRun hvalid hmakes
    rcases htag hblock with ⟨hread, -⟩ | ⟨-, hone⟩
    · exact ⟨hblock, hread⟩
    · rw [hslots, SlotRange.size] at hone
      dsimp only at hone
      omega

/-- Two references and two longs between run tags. The longs are a run, which ends with the
range, and its length looks like the tag of a double. -/
def borderedTags : RawBuffer where
  args := #[0, 0, 0, 0, 0, 0]
  tags := #[0x80, 5, 5, 0x81, 2, 0x81]
  exprs := #[]
  strings := .empty

/-- The references are no run, although they are as many, because runs are of scalars only. -/
theorem walk_compress_borderedTags :
    (Valid ⟨some 2, false⟩ ∧ [SlotType.expression, .expression, .long, .long].length < 2 ^ 32 ∧
      TagsAt borderedTags.regions 1 (compress ⟨some 2, false⟩
        ([SlotType.expression, .expression, .long, .long].map SlotType.code))) ∧
    ∃ blocks : List Block,
      (Blocks.ofRange ⟨1, 5⟩).toList borderedTags.regions = blocks.map .ok ∧
      blocks.flatMap Block.places =
        [(.expression, 1), (.expression, 2), (.long, 3), (.long, 4)] ∧
      ⟨.long, ⟨3, 5⟩⟩ ∈ blocks ∧ ⟨.expression, ⟨1, 3⟩⟩ ∉ blocks := by
  have hvalid : Valid ⟨some 2, false⟩ := valid_some (Nat.le_refl 2)
  have hwords : compress ⟨some 2, false⟩
      ([SlotType.expression, .expression, .long, .long].map SlotType.code) = [5, 5, 0x81, 2] := by
    decide +kernel
  have htags : TagsAt borderedTags.regions 1 (compress ⟨some 2, false⟩
      ([SlotType.expression, .expression, .long, .long].map SlotType.code)) := by
    rw [hwords]
    intro i word hword
    have hi : i < 4 := (List.getElem?_eq_some_iff.mp hword).1
    interval_cases i <;> cases hword <;> decide +kernel
  have hrun : IsRun ⟨some 2, false⟩ [.expression, .expression, .long, .long] .long 2 2 := by
    refine ⟨⟨Nat.two_pos, by decide, ?_, by decide⟩, ⟨2, rfl, Nat.le_refl 2⟩, fun h => by cases h⟩
    rintro i hi
    obtain rfl : i = 1 := by omega
    decide
  obtain ⟨-, blocks, hwalk, hplaces, hruns, hothers⟩ := walk_compress hvalid (by decide) htags
  refine ⟨⟨hvalid, by decide, htags⟩, blocks, hwalk, hplaces,
    ((hruns ⟨.long, ⟨3, 5⟩⟩).mpr ⟨2, 2, hrun, rfl⟩).1, fun hmem => ?_⟩
  rcases hothers _ hmem with hread | ⟨-, hone⟩
  · obtain ⟨_, _, hrun, -⟩ := (hruns _).mp ⟨hmem, hread⟩
    exact absurd (hrun.eligible rfl) (by decide)
  · cases hone

end RunPolicy

end FlatTree
