import Mathlib.Data.Nat.Bitwise
import FlatTree.Proofs.Buffer.Layout
import FlatTree.Proofs.Buffer.Places

/-!
# Walks tile their range

The tag words of a range are read by a grammar: a tag is a single word, or a run that
takes its length from the word after it. The length word is the tag word of another
slot at the same time, and it may even lie outside the range, so what parses is said
slot by slot and not word by word. A walk is a parser for that grammar.

- `Tag.WrittenAt`: the grammar of one tag. `Tag.read_eq_ok` says that reading obeys it.
- `Regions.Parses`: the tags from one slot up to another, and the blocks they make.
- `Tiles`: blocks that follow one another with no gap and no overlap.
- `Calls.Yield`: what the calls of an iterator answer, one after another.
- `Blocks.next_cases`: all that one step of a walk can do.
- `Blocks.walk_parses`: a walk yields the blocks that the tags make, and one fault if
  the tags do not parse up to the end of the range.
-/

namespace FlatTree

/-! ## The grammar of tags -/

/-- A tag is written at a slot. A single tag is a word that is a type code. A run is a
word with bit 7 set over a type code in the seven bits below it, whatever the bits above
it; the low half of the next word is its length, which is two at least. -/
inductive Tag.WrittenAt (r : Regions) (slot : Nat) : Tag → Prop where
  | single {type : SlotType} (hword : r.tagWord slot = .ok type.code) :
    Tag.WrittenAt r slot (.single type)
  | run {type : SlotType} {word lengthWord : UInt64} (hword : r.tagWord slot = .ok word)
      (hrun : word.toNat.testBit 7 = true) (htype : word.toNat % 2 ^ 7 = type.code.toNat)
      (hlength : r.tagWord (slot + 1) = .ok lengthWord)
      (htwo : 2 ≤ lengthWord.toNat % 2 ^ 32) :
    Tag.WrittenAt r slot (.run type (lengthWord.toNat % 2 ^ 32))

theorem SlotType.ofCode?_eq_some {code : UInt64} {type : SlotType} :
    ofCode? code = some type ↔ code = type.code := by
  constructor
  · intro h
    unfold ofCode? at h
    split_ifs at h with hcode hcode hcode hcode hcode hcode <;> cases h <;> exact hcode
  · rintro rfl
    exact ofCode?_code type

namespace Tag

/-- The mask of the run bit tells whether bit 7 is set. -/
theorem and_runBit_eq_zero {word : UInt64} :
    word &&& runBit = 0 ↔ word.toNat.testBit 7 = false := by
  rw [← UInt64.toNat_inj, UInt64.toNat_and, show runBit.toNat = 2 ^ 7 from rfl, Nat.and_two_pow]
  cases word.toNat.testBit 7 <;> simp

theorem toNat_and_typeMask (word : UInt64) : (word &&& typeMask).toNat = word.toNat % 2 ^ 7 := by
  rw [UInt64.toNat_and, show typeMask.toNat = 2 ^ 7 - 1 from rfl, Nat.and_two_pow_sub_one_eq_mod]

theorem toNat_and_lengthMask (word : UInt64) :
    (word &&& lengthMask).toNat = word.toNat % 2 ^ 32 := by
  rw [UInt64.toNat_and, show lengthMask.toNat = 2 ^ 32 - 1 from rfl,
    Nat.and_two_pow_sub_one_eq_mod]

variable {r : Regions} {slot : Nat} {tag : Tag}

/-- **Reading a tag obeys the grammar**, and refuses nothing that is written by it. -/
theorem read_eq_ok : read r slot = .ok tag ↔ tag.WrittenAt r slot := by
  constructor
  · intro h
    obtain ⟨word, hword, h⟩ := bind_eq_ok.mp h
    by_cases hbit : word &&& runBit = 0
    · rw [if_pos hbit] at h
      cases hcode : SlotType.ofCode? word with
      | none => simp [hcode] at h
      | some type =>
        simp only [hcode, pure_eq_ok] at h
        subst h
        exact .single (SlotType.ofCode?_eq_some.mp hcode ▸ hword)
    · rw [if_neg hbit] at h
      have hrun : word.toNat.testBit 7 = true := by simpa [and_runBit_eq_zero] using hbit
      cases hcode : SlotType.ofCode? (word &&& typeMask) with
      | none => simp [hcode] at h
      | some type =>
        have htype := congrArg UInt64.toNat (SlotType.ofCode?_eq_some.mp hcode)
        rw [toNat_and_typeMask] at htype
        cases hlength : r.tagWord (slot + 1) with
        | error fault => simp [hcode, hlength] at h
        | ok lengthWord =>
          simp only [hcode, hlength, toNat_and_lengthMask] at h
          by_cases htwo : lengthWord.toNat % 2 ^ 32 < 2
          · rw [if_pos htwo] at h
            cases h
          · rw [if_neg htwo] at h
            cases h
            exact .run hword hrun htype hlength (Nat.le_of_not_lt htwo)
  · intro h
    cases h with
    | @single type hword =>
      have hbit : type.code &&& runBit = 0 := by cases type <;> rfl
      rw [read, hword, ok_bind, if_pos hbit, SlotType.ofCode?_code]
      rfl
    | @run type word lengthWord hword hrun htype hlength htwo =>
      have hbit : ¬ word &&& runBit = 0 := by simp [and_runBit_eq_zero, hrun]
      have hcode : word &&& typeMask = type.code := by
        rw [← UInt64.toNat_inj, toNat_and_typeMask, htype]
      rw [read, hword, ok_bind, if_neg hbit, hcode]
      simp only [SlotType.ofCode?_code, hlength, toNat_and_lengthMask,
        if_neg (Nat.not_lt.mpr htwo)]
      rfl

theorem WrittenAt.span_pos (h : tag.WrittenAt r slot) : 0 < tag.span :=
  span_pos_of_read (read_eq_ok.mpr h)

end Tag

namespace Regions

/-- The tags from a slot on, none of which reaches past `stop`: the blocks that they
make, and the slot where they end. -/
inductive Parses (r : Regions) (stop : Nat) : Nat → List Block → Nat → Prop where
  | nil {slot : Nat} : Parses r stop slot [] slot
  | cons {slot last : Nat} {tag : Tag} {blocks : List Block} (htag : tag.WrittenAt r slot)
      (hfits : slot + tag.span ≤ stop) (hrest : Parses r stop (slot + tag.span) blocks last) :
    Parses r stop slot (⟨tag.type, ⟨slot, slot + tag.span⟩⟩ :: blocks) last

/-- Whatever tag is written at a slot, if one is, it reaches past `stop`. -/
def Faulty (r : Regions) (stop slot : Nat) : Prop :=
  ∀ tag : Tag, tag.WrittenAt r slot → stop < slot + tag.span

end Regions

/-! ## Tilings -/

/-- Blocks, none of them empty, that follow one another from one slot up to another,
with no gap and no overlap. -/
def Tiles : Nat → List Block → Nat → Prop
  | start, [], stop => start = stop
  | start, block :: rest, stop =>
    block.slots.start = start ∧ start < block.slots.stop ∧ Tiles block.slots.stop rest stop

namespace Tiles

variable {start stop : Nat} {blocks : List Block}

theorem le (h : Tiles start blocks stop) : start ≤ stop := by
  induction blocks generalizing start with
  | nil => exact Nat.le_of_eq h
  | cons first rest ih =>
    obtain ⟨-, hlt, hrest⟩ := h
    exact Nat.le_trans (Nat.le_of_lt hlt) (ih hrest)

theorem start_le_of_mem {block : Block} (h : Tiles start blocks stop) (hblock : block ∈ blocks) :
    start ≤ block.slots.start := by
  induction blocks generalizing start with
  | nil => cases hblock
  | cons first rest ih =>
    obtain ⟨hstart, hlt, hrest⟩ := h
    rcases List.mem_cons.mp hblock with rfl | hblock
    · exact Nat.le_of_eq hstart.symm
    · exact Nat.le_trans (Nat.le_of_lt hlt) (ih hrest hblock)

/-- The places of a tiling stand one after another, slot by slot. -/
theorem map_snd_places (h : Tiles start blocks stop) :
    (blocks.flatMap Block.places).map Prod.snd = List.range' start (stop - start) := by
  induction blocks generalizing start with
  | nil =>
    obtain rfl : start = stop := h
    simp
  | cons first rest ih =>
    obtain ⟨rfl, hlt, hrest⟩ := h
    have hle := hrest.le
    have hjoin : first.slots.stop = first.slots.start + first.slots.size := by
      unfold SlotRange.size
      omega
    have hsize : first.slots.size + (stop - first.slots.stop) = stop - first.slots.start := by
      unfold SlotRange.size
      omega
    rw [List.flatMap_cons, List.map_append, Block.map_snd_places, ih hrest, SlotRange.toList,
      ← hsize, ← List.range'_append_1, ← hjoin]

/-- The place that has `k` others before it is the slot that has `k` others before it. -/
theorem snd_of_getElem? {k : Nat} {place : SlotType × Nat} (h : Tiles start blocks stop)
    (hplace : (blocks.flatMap Block.places)[k]? = some place) : place.2 = start + k := by
  have hslot : ((blocks.flatMap Block.places).map Prod.snd)[k]? = some place.2 := by
    simp [hplace]
  rw [h.map_snd_places] at hslot
  obtain ⟨hk, hslot⟩ := List.getElem?_eq_some_iff.mp hslot
  simp only [List.getElem_range'] at hslot
  omega

/-- The places of a block of a tiling are as far from the first place as the block is
from the first slot. -/
theorem take_drop_places {block : Block} (h : Tiles start blocks stop) (hblock : block ∈ blocks) :
    ((blocks.flatMap Block.places).drop (block.slots.start - start)).take block.slots.size =
      block.places := by
  induction blocks generalizing start with
  | nil => cases hblock
  | cons first rest ih =>
    obtain ⟨rfl, hlt, hrest⟩ := h
    rw [List.flatMap_cons]
    by_cases hfirst : block = first
    · subst hfirst
      rw [Nat.sub_self, List.drop_zero, List.take_left' block.length_places]
    · have hmem : block ∈ rest := (List.mem_cons.mp hblock).resolve_left hfirst
      have hstart := hrest.start_le_of_mem hmem
      have hskip : block.slots.start - first.slots.start =
          first.places.length + (block.slots.start - first.slots.stop) := by
        rw [Block.length_places, SlotRange.size]
        omega
      rw [hskip, ← List.drop_drop, List.drop_left, ih hrest hmem]

end Tiles

namespace Regions.Parses

variable {r : Regions} {stop start last : Nat} {blocks : List Block}

theorem tiles (h : r.Parses stop start blocks last) : Tiles start blocks last := by
  induction h with
  | nil => rfl
  | cons htag _ _ ih => exact ⟨rfl, Nat.lt_add_of_pos_right htag.span_pos, ih⟩

theorem le_stop (h : r.Parses stop start blocks last) (hstart : start ≤ stop) :
    last ≤ stop := by
  induction h with
  | nil => exact hstart
  | cons _ hfits _ ih => exact ih hfits

end Regions.Parses

/-! ## Repeated calls -/

namespace Calls

variable {σ α : Type}

/-- Where an iterator stands after so many calls. -/
def after (call : σ → Option α × σ) (s : σ) : Nat → σ
  | 0 => s
  | n + 1 => after call (call s).2 n

/-- What a call answers that comes after so many others. -/
def answer (call : σ → Option α × σ) (s : σ) (n : Nat) : Option α :=
  (call (after call s n)).1

/-- The calls answer with these items one by one, and every further call with nothing. -/
def Yield (call : σ → Option α × σ) (s : σ) (items : List α) : Prop :=
  ∀ n, answer call s n = items[n]?

variable {call : σ → Option α × σ} {s s' : σ} {a : α} {items : List α}

/-- The last of the calls comes after the others. -/
theorem after_succ (s : σ) (n : Nat) : after call s (n + 1) = (call (after call s n)).2 := by
  induction n generalizing s with
  | zero => rfl
  | succ n ih => exact ih (call s).2

theorem Yield.cons (h : call s = (some a, s')) (hrest : Yield call s' items) :
    Yield call s (a :: items) := by
  intro n
  cases n with
  | zero => simp [answer, after, h]
  | succ n => simpa [answer, after, h] using hrest n

theorem Yield.nil (h : call s = (none, s')) (hrest : Yield call s' []) : Yield call s [] := by
  intro n
  cases n with
  | zero => simp [answer, after, h]
  | succ n => simpa [answer, after, h] using hrest n

/-- Where a call answers with nothing and changes nothing, so does every further call. -/
theorem yield_nil_of_fixed (h : call s = (none, s)) : Yield call s [] := by
  intro n
  induction n with
  | zero => simp [answer, after, h]
  | succ n ih => simpa [answer, after, h] using ih

end Calls

/-! ## Walks -/

namespace Blocks

variable {r : Regions}

/-- One call: what is yielded, and the walk after it. A walk with nothing left stays
where it is. -/
def call (r : Regions) (b : Blocks) : Option (Except Fault Block) × Blocks :=
  match b.next r with
  | none => (none, b)
  | some (item, rest) => (some item, rest)

/-- What is not covered when an item has been yielded: all that comes after a block, and
nothing after a fault. -/
def uncovered (stop : Nat) : Except Fault Block → SlotRange
  | .ok block => ⟨block.slots.stop, stop⟩
  | .error _ => ⟨stop, stop⟩

/-- **One step of a walk**: there is none where no slot is left; a tag that fits is taken;
and anything else is a fault, which leaves no slot. -/
theorem next_cases (r : Regions) (b : Blocks) :
    (b.stop ≤ b.cursor ∧ b.next r = none) ∨
      (b.cursor < b.stop ∧ ∃ tag : Tag, tag.WrittenAt r b.cursor ∧
        b.cursor + tag.span ≤ b.stop ∧
        b.next r = some (.ok ⟨tag.type, ⟨b.cursor, b.cursor + tag.span⟩⟩,
          ⟨b.cursor + tag.span, b.stop⟩)) ∨
      (b.cursor < b.stop ∧ r.Faulty b.stop b.cursor ∧
        ∃ fault, b.next r = some (.error fault, ⟨b.stop, b.stop⟩)) := by
  by_cases hle : b.stop ≤ b.cursor
  · exact .inl ⟨hle, if_pos hle⟩
  have hlt : b.cursor < b.stop := Nat.lt_of_not_le hle
  cases hread : Tag.read r b.cursor with
  | error fault =>
    refine .inr (.inr ⟨hlt, fun tag htag => ?_, fault, ?_⟩)
    · rw [Tag.read_eq_ok.mpr htag] at hread
      cases hread
    · simp only [next, if_neg hle, hread]
  | ok tag =>
    by_cases hfits : b.cursor + tag.span ≤ b.stop
    · refine .inr (.inl ⟨hlt, tag, Tag.read_eq_ok.mp hread, hfits, ?_⟩)
      simp only [next, if_neg hle, hread, if_pos hfits]
    · refine .inr (.inr ⟨hlt, fun other hother => ?_, .malformedRun b.cursor .pastChildren, ?_⟩)
      · rw [Tag.read_eq_ok.mpr hother] at hread
        cases hread
        exact Nat.lt_of_not_le hfits
      · simp only [next, if_neg hle, hread, if_neg hfits]

/-- The calls on a walk yield what the walk yields, and nothing more. -/
theorem yield_toList (r : Regions) (b : Blocks) : Calls.Yield (call r) b (b.toList r) := by
  fun_induction toList r b with
  | case1 b hnext => exact Calls.yield_nil_of_fixed (by rw [call, hnext])
  | case2 b item rest hnext ih => exact .cons (by rw [call, hnext]) ih

/-- A walk yields no more items than it has slots. -/
theorem length_toList_le (r : Regions) (b : Blocks) : (b.toList r).length ≤ b.remaining.size := by
  fun_induction toList r b with
  | case1 b hnext => exact Nat.zero_le _
  | case2 b item rest hnext ih =>
    have hless := remaining_lt_of_next hnext
    rw [List.length_cons]
    omega

/-- After an item, just those slots are left that are not covered yet. -/
theorem remaining_after {b : Blocks} {n : Nat} {item : Except Fault Block}
    (h : (b.toList r)[n]? = some item) :
    (Calls.after (call r) b (n + 1)).remaining = uncovered b.stop item := by
  fun_induction toList r b generalizing n with
  | case1 b hnext => cases h
  | case2 b item' rest hnext ih =>
    have hcall : (call r b).2 = rest := by rw [call, hnext]
    rw [Calls.after, hcall]
    rcases next_cases r b with ⟨-, hnone⟩ | ⟨-, tag, -, -, htag⟩ | ⟨-, -, fault, hfault⟩
    · rw [hnone] at hnext
      cases hnext
    · rw [htag] at hnext
      cases hnext
      cases n with
      | zero =>
        cases h
        rfl
      | succ n => exact ih h
    · rw [hfault] at hnext
      cases hnext
      cases n with
      | zero =>
        cases h
        rfl
      | succ n =>
        rw [toList_of_le (Nat.le_refl _)] at h
        cases h

/-- A walk yields the blocks of a parse, up to the end of the range or up to a slot where
no tag fits, which is one fault. -/
theorem exists_parses {b : Blocks} (h : b.cursor ≤ b.stop) :
    ∃ blocks last, r.Parses b.stop b.cursor blocks last ∧
      (b.toList r = blocks.map .ok ∧ last = b.stop ∨
        (∃ fault, b.toList r = blocks.map .ok ++ [.error fault]) ∧
          last < b.stop ∧ r.Faulty b.stop last) := by
  fun_induction toList r b with
  | case1 b hnext =>
    rcases next_cases r b with ⟨hle, -⟩ | ⟨-, tag, -, -, htag⟩ | ⟨-, -, fault, hfault⟩
    · exact ⟨[], b.cursor, .nil, .inl ⟨rfl, Nat.le_antisymm h hle⟩⟩
    · rw [htag] at hnext
      cases hnext
    · rw [hfault] at hnext
      cases hnext
  | case2 b item rest hnext ih =>
    rcases next_cases r b with ⟨-, hnone⟩ | ⟨-, tag, hwritten, hfits, htag⟩ |
      ⟨hlt, hfaulty, fault, hfault⟩
    · rw [hnone] at hnext
      cases hnext
    · rw [htag] at hnext
      cases hnext
      obtain ⟨blocks, last, hparses, hend⟩ := ih hfits
      refine ⟨_, last, .cons hwritten hfits hparses, ?_⟩
      rcases hend with ⟨hblocks, hlast⟩ | ⟨⟨fault, hblocks⟩, hlast⟩
      · exact .inl ⟨by rw [hblocks]; rfl, hlast⟩
      · exact .inr ⟨⟨fault, by rw [hblocks]; rfl⟩, hlast⟩
    · rw [hfault] at hnext
      cases hnext
      refine ⟨[], b.cursor, .nil, .inr ⟨⟨fault, ?_⟩, hlt, hfaulty⟩⟩
      rw [toList_of_le (Nat.le_refl _)]
      rfl

/-- Where the tags parse, a walk yields just the blocks that they make. -/
theorem toList_of_parses {stop start last : Nat} {blocks : List Block}
    (h : r.Parses stop start blocks last) :
    toList r ⟨start, stop⟩ = blocks.map .ok ++ toList r ⟨last, stop⟩ := by
  induction h with
  | nil => rfl
  | cons htag hfits _ ih =>
    rw [toList_of_read (Tag.read_eq_ok.mpr htag) hfits, ih]
    rfl

/-- A walk meets no fault exactly if the tags of its range parse up to the end of it, and
then it yields the blocks that they make. -/
theorem toList_eq_map_ok {start stop : Nat} {blocks : List Block} (h : start ≤ stop) :
    toList r ⟨start, stop⟩ = blocks.map .ok ↔ r.Parses stop start blocks stop := by
  constructor
  · intro heq
    obtain ⟨parsed, last, hparses, ⟨hblocks, rfl⟩ | ⟨⟨fault, hblocks⟩, -⟩⟩ :=
      exists_parses (r := r) (b := ⟨start, stop⟩) h
    · rw [← map_ok_inj.mp (hblocks.symm.trans heq)]
      exact hparses
    · -- A fault is none of the blocks.
      have hmem : .error fault ∈ blocks.map Except.ok := by
        rw [← heq, hblocks]
        simp
      simp at hmem
  · intro hparses
    rw [toList_of_parses hparses, toList_of_le (Nat.le_refl _), List.append_nil]

/-- **A walk is a parser of the tags in its range.** However often it is called, it yields
its items one by one and then nothing, no more items than the range has slots, and after
each item what remains are the slots that are not covered yet. It yields blocks only
exactly if the tags parse up to the end of the range. Otherwise the blocks that the tags
make tile the range up to a slot where none fits, and one fault comes after them. -/
theorem walk_parses (r : Regions) (range : SlotRange) :
    Calls.Yield (call r) (ofRange range) ((ofRange range).toList r) ∧
      ((ofRange range).toList r).length ≤ range.size ∧
      (∀ n item, ((ofRange range).toList r)[n]? = some item →
        (Calls.after (call r) (ofRange range) (n + 1)).remaining = uncovered range.stop item) ∧
      (range.start ≤ range.stop →
        (∀ blocks, (ofRange range).toList r = blocks.map .ok ↔
          r.Parses range.stop range.start blocks range.stop) ∧
        ∃ blocks last, r.Parses range.stop range.start blocks last ∧
          Tiles range.start blocks last ∧ last ≤ range.stop ∧
          ((ofRange range).toList r = blocks.map .ok ∧ last = range.stop ∨
            (∃ fault, (ofRange range).toList r = blocks.map .ok ++ [.error fault]) ∧
              last < range.stop ∧ r.Faulty range.stop last)) := by
  refine ⟨yield_toList r _, length_toList_le r _, fun n item => remaining_after, fun h => ?_⟩
  refine ⟨fun blocks => toList_eq_map_ok h, ?_⟩
  obtain ⟨blocks, last, hparses, hend⟩ := exists_parses (r := r) (b := ofRange range) h
  exact ⟨blocks, last, hparses, hparses.tiles, hparses.le_stop h, hend⟩

/-- A text, a run of three longs, a run of two expressions, and a run of two doubles of
which the last slot holds no tag of its own. Of the tag words that belong to runs, the
bits that nobody reads are set. -/
def mixedTags : RawBuffer where
  args := #[0, 0, 0, 0, 0, 0, 0, 0]
  tags := #[3, 0xDEAD00000081, 0xBEEF00000003, 0xFFFF, 0x85, 2, 0x82, 2]
  exprs := #[]
  strings := ByteArray.empty

/-- Without the last slot the last run does not fit, although its length can be read. -/
theorem walk_parses_mixedTags :
    0 ≤ 8 ∧ mixedTags.regions.Parses 8 0
        [⟨.string, ⟨0, 1⟩⟩, ⟨.long, ⟨1, 4⟩⟩, ⟨.expression, ⟨4, 6⟩⟩, ⟨.double, ⟨6, 8⟩⟩] 8 ∧
      ¬ ∃ blocks, mixedTags.regions.Parses 7 0 blocks 7 := by
  have hwhole := ((walk_parses mixedTags.regions ⟨0, 8⟩).2.2.2 (by decide)).1
  have hcut := ((walk_parses mixedTags.regions ⟨0, 7⟩).2.2.2 (by decide)).1
  refine ⟨by decide, (hwhole _).mp (by decide +kernel), ?_⟩
  rintro ⟨blocks, hparses⟩
  have hfault : .error (.malformedRun 6 .pastChildren) ∈
      (ofRange ⟨0, 7⟩).toList mixedTags.regions := by decide +kernel
  rw [(hcut blocks).mpr hparses] at hfault
  simp at hfault

end Blocks

end FlatTree
