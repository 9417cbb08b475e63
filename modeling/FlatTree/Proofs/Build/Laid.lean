import FlatTree.Proofs.Build.Stored
import FlatTree.Proofs.Decode.Unfolding

/-!
# Trees laid out in a part of a buffer

While a buffer is written, some of its expressions are complete and others are
not. A complete one is known by what it occupies: as long as its records and its
slots keep what they hold, it stays complete, whatever is written elsewhere.

- `Part`: some expressions and slots of a buffer.
- `RawBuffer.Keeps`: a part keeps what it holds, and goes over into another part.
- `Lays`, `SlotsLay`: a tree, or trees, are laid out in a part.
- `Lays.unfolds`: in a small buffer, what is laid out is read back, and
  `Lays.eq_of_unfolds`: nothing else is.
-/

namespace FlatTree

/-- Some of the expressions and slots of a buffer. -/
structure Part where
  expressions : Nat → Prop
  slots : Nat → Prop

/-- The expressions of a part from a number on, and its slots. -/
def Part.since (part : Part) (first : Nat) : Part where
  expressions index := first ≤ index ∧ part.expressions index
  slots := part.slots

namespace RawBuffer

variable {raw next last : RawBuffer} {part wider widest : Part}

/-- A slot has the same words in two buffers. -/
def SameAt (raw next : RawBuffer) (slot : Nat) : Prop :=
  next.args[slot]? = raw.args[slot]? ∧ next.tags[slot]? = raw.tags[slot]?

theorem SameAt.trans {slot : Nat} (h : raw.SameAt next slot) (h' : next.SameAt last slot) :
    raw.SameAt last slot :=
  ⟨h'.1.trans h.1, h'.2.trans h.2⟩

/-- What a part of a buffer holds stays, and is in a part of the next buffer. -/
structure Keeps (raw : RawBuffer) (part : Part) (next : RawBuffer) (wider : Part) : Prop where
  strings : ∃ more, next.strings = raw.strings ++ more
  size : raw.args.size = next.args.size
  expressions : ∀ index, part.expressions index →
    wider.expressions index ∧ next.exprs[index]? = raw.exprs[index]?
  slots : ∀ slot, part.slots slot → wider.slots slot ∧ raw.SameAt next slot

namespace Keeps

theorem trans (h : raw.Keeps part next wider) (h' : next.Keeps wider last widest) :
    raw.Keeps part last widest := by
  obtain ⟨more, hmore⟩ := h.strings
  obtain ⟨later, hlater⟩ := h'.strings
  refine ⟨⟨more ++ later, by rw [hlater, hmore, ByteArray.append_assoc]⟩, h.size.trans h'.size,
    fun index hindex => ?_, fun slot hslot => ?_⟩
  · obtain ⟨hwider, heq⟩ := h.expressions index hindex
    obtain ⟨hwidest, heq'⟩ := h'.expressions index hwider
    exact ⟨hwidest, heq'.trans heq⟩
  · obtain ⟨hwider, hsame⟩ := h.slots slot hslot
    obtain ⟨hwidest, hsame'⟩ := h'.slots slot hwider
    exact ⟨hwidest, hsame.trans hsame'⟩

theorem refl (raw : RawBuffer) (part : Part) : raw.Keeps part raw part where
  strings := ⟨.empty, ByteArray.append_empty.symm⟩
  size := rfl
  expressions _ hindex := ⟨hindex, rfl⟩
  slots _ hslot := ⟨hslot, rfl, rfl⟩

/-- There are more expressions from an earlier number on. -/
theorem since_le (raw : RawBuffer) (part : Part) {first second : Nat} (h : first ≤ second) :
    raw.Keeps (part.since second) raw (part.since first) where
  strings := ⟨.empty, ByteArray.append_empty.symm⟩
  size := rfl
  expressions _ hindex := ⟨⟨Nat.le_trans h hindex.1, hindex.2⟩, rfl⟩
  slots _ hslot := ⟨hslot, rfl, rfl⟩

theorem since (h : raw.Keeps part next wider) (first : Nat) :
    raw.Keeps (part.since first) next (wider.since first) where
  strings := h.strings
  size := h.size
  expressions index hindex :=
    ⟨⟨hindex.1, (h.expressions index hindex.2).1⟩, (h.expressions index hindex.2).2⟩
  slots := h.slots

end Keeps

/-- Slots that keep their words hold what they held. -/
theorem standsAt_slotHolds_of_sameAt {start : Nat} {held : List Slot}
    (h : StandsAt raw.SlotHolds start held) (hstrings : ∃ more, next.strings = raw.strings ++ more)
    (hsame : ∀ slot, start ≤ slot → slot < start + held.length → raw.SameAt next slot) :
    StandsAt next.SlotHolds start held := by
  obtain ⟨more, hmore⟩ := hstrings
  refine h.mono ?_
  rintro slot s hstart hstop ⟨word, hword, hstored⟩
  refine ⟨word, (hsame slot hstart hstop).1.trans hword, ?_⟩
  rw [hmore]
  exact hstored.append more

/-- An expression stays stored if its record and its slots keep their words. -/
theorem Stores.of_sameAt {policy : RunPolicy} {index start : Nat} {head : String}
    {held : List Slot} (h : raw.Stores policy index head start held) (hvalid : policy.Valid)
    (hstrings : ∃ more, next.strings = raw.strings ++ more) (hsize : raw.args.size = next.args.size)
    (hrecord : next.exprs[index]? = raw.exprs[index]?)
    (hsame : ∀ slot, start ≤ slot → slot < start + held.length → raw.SameAt next slot) :
    next.Stores policy index head start held := by
  refine ⟨?_, hsize ▸ h.fits, standsAt_slotHolds_of_sameAt h.args hstrings hsame, ?_⟩
  · obtain ⟨offset, hholds, heq⟩ := h.record
    obtain ⟨more, hmore⟩ := hstrings
    refine ⟨offset, ?_, hrecord.trans heq⟩
    rw [hmore]
    exact hholds.append more
  · refine h.tags.mono fun slot word hstart hstop hword => ?_
    rw [RunPolicy.length_compress hvalid, List.length_map] at hstop
    exact (hsame slot hstart hstop).2.trans hword

end RawBuffer

mutual

/-- A tree is laid out in a part of a buffer: its expression is stored there, and
so is all below it. -/
inductive Lays (raw : RawBuffer) (policy : RunPolicy) (part : Part) : Nat → Tree → Prop where
  | node {index start : Nat} {head : String} {held : List Slot} {children : List Tree} :
    raw.Stores policy index head start held → part.expressions index →
      (∀ slot, start ≤ slot → slot < start + held.length → part.slots slot) →
      SlotsLay raw policy part held children → Lays raw policy part index (.node head children)

/-- Slots refer to trees that are laid out in a part of a buffer. -/
inductive SlotsLay (raw : RawBuffer) (policy : RunPolicy) (part : Part) :
    List Slot → List Tree → Prop where
  | nil : SlotsLay raw policy part [] []
  | scalar {value : Scalar} {held : List Slot} {trees : List Tree} :
    SlotsLay raw policy part held trees →
      SlotsLay raw policy part (.scalar value :: held) (.scalar value :: trees)
  | expression {index : Nat} {tree : Tree} {held : List Slot} {trees : List Tree} :
    Lays raw policy part index tree → SlotsLay raw policy part held trees →
      SlotsLay raw policy part (.expression index :: held) (tree :: trees)

end

section Laid

variable {raw next : RawBuffer} {policy : RunPolicy} {part wider : Part}

theorem SlotsLay.append {held more : List Slot} {trees others : List Tree}
    (h : SlotsLay raw policy part held trees) (hmore : SlotsLay raw policy part more others) :
    SlotsLay raw policy part (held ++ more) (trees ++ others) := by
  match held, trees, h with
  | _, _, .nil => exact hmore
  | _, _, .scalar hrest => exact .scalar (hrest.append hmore)
  | _, _, .expression htree hrest => exact .expression htree (hrest.append hmore)

mutual

/-- What is laid out in a part that is kept stays laid out. -/
theorem Lays.of_keeps {index : Nat} {tree : Tree} (h : Lays raw policy part index tree)
    (hvalid : policy.Valid) (hkeeps : raw.Keeps part next wider) :
    Lays next policy wider index tree := by
  cases h with
  | node hstores hindex hslots hchildren =>
    obtain ⟨hwider, hrecord⟩ := hkeeps.expressions index hindex
    refine .node (hstores.of_sameAt hvalid hkeeps.strings hkeeps.size hrecord ?_) hwider ?_
      (hchildren.of_keeps hvalid hkeeps)
    · exact fun slot hstart hstop => (hkeeps.slots slot (hslots slot hstart hstop)).2
    · exact fun slot hstart hstop => (hkeeps.slots slot (hslots slot hstart hstop)).1

theorem SlotsLay.of_keeps {held : List Slot} {trees : List Tree}
    (h : SlotsLay raw policy part held trees) (hvalid : policy.Valid)
    (hkeeps : raw.Keeps part next wider) : SlotsLay next policy wider held trees := by
  cases h with
  | nil => exact .nil
  | scalar hrest => exact .scalar (hrest.of_keeps hvalid hkeeps)
  | expression htree hrest =>
    exact .expression (htree.of_keeps hvalid hkeeps) (hrest.of_keeps hvalid hkeeps)

end

/-! ## Reading back what is laid out -/

theorem Lays.index_lt {index : Nat} {tree : Tree} (h : Lays raw policy part index tree) :
    index < raw.exprs.size := by
  cases h with
  | node hstores => exact hstores.index_lt

/-- What a slot refers to is laid out as one of the trees. -/
theorem SlotsLay.exists_of_mem {index : Nat} :
    ∀ {held : List Slot} {trees : List Tree}, SlotsLay raw policy part held trees →
      .expression index ∈ held → ∃ tree ∈ trees, Lays raw policy part index tree
  | _, _, .scalar hrest, hmem => by
    rcases List.mem_cons.mp hmem with heq | hmem
    · cases heq
    · obtain ⟨tree, htree, hlays⟩ := hrest.exists_of_mem hmem
      exact ⟨tree, List.mem_cons_of_mem _ htree, hlays⟩
  | _, _, .expression hlays hrest, hmem => by
    rcases List.mem_cons.mp hmem with heq | hmem
    · cases heq
      exact ⟨_, List.mem_cons_self, hlays⟩
    · obtain ⟨tree, htree, hlays⟩ := hrest.exists_of_mem hmem
      exact ⟨tree, List.mem_cons_of_mem _ htree, hlays⟩

theorem SlotsLay.index_lt {index : Nat} {held : List Slot} {trees : List Tree}
    (h : SlotsLay raw policy part held trees) (hmem : .expression index ∈ held) :
    index < raw.exprs.size := by
  obtain ⟨_, -, hlays⟩ := h.exists_of_mem hmem
  exact hlays.index_lt

theorem SlotsLay.storable {s : Slot} :
    ∀ {held : List Slot} {trees : List Tree}, SlotsLay raw policy part held trees →
      Tree.AllStorable trees → s ∈ held → s.Storable
  | _, _, .scalar hrest, hstorable, hmem => by
    rcases List.mem_cons.mp hmem with rfl | hmem
    · exact hstorable.1
    · exact hrest.storable hstorable.2 hmem
  | _, _, .expression _ hrest, hstorable, hmem => by
    rcases List.mem_cons.mp hmem with rfl | hmem
    · exact trivial
    · exact hrest.storable hstorable.2 hmem

theorem SlotsLay.map_type :
    ∀ {held : List Slot} {trees : List Tree}, SlotsLay raw policy part held trees →
      held.map Slot.type = trees.map Tree.type
  | _, _, .nil => rfl
  | _, _, .scalar hrest => congrArg _ hrest.map_type
  | _, _, .expression htree hrest => by
    cases htree with
    | node _ _ _ _ => exact congrArg _ hrest.map_type

mutual

/-- **What is laid out in a small buffer is read back**, if the heap can hold its
texts and the lengths of its runs can be read. -/
theorem Lays.unfolds {index : Nat} {tree : Tree} (h : Lays raw policy part index tree)
    (hsmall : raw.Small) (hvalid : policy.Valid) (hlegible : tree.Legible policy)
    (hstorable : tree.Storable) : Unfolds raw.regions index tree := by
  cases h with
  | node hstores _ _ hchildren =>
    refine .node (hstores.headOf hsmall hstorable.1) ?_
      (hchildren.unfolds hsmall hvalid hlegible.2 hstorable.2)
    exact hstores.childSlots hsmall hvalid (hchildren.map_type ▸ hlegible.1)
      (fun s hs => hchildren.storable hstorable.2 hs) fun child hchild => hchildren.index_lt hchild

theorem SlotsLay.unfolds {held : List Slot} {trees : List Tree}
    (h : SlotsLay raw policy part held trees) (hsmall : raw.Small) (hvalid : policy.Valid)
    (hlegible : Tree.AllLegible policy trees) (hstorable : Tree.AllStorable trees) :
    SlotsUnfold raw.regions held trees := by
  cases h with
  | nil => exact .nil
  | scalar hrest => exact .scalar (hrest.unfolds hsmall hvalid hlegible.2 hstorable.2)
  | expression htree hrest =>
    exact .expression (htree.unfolds hsmall hvalid hlegible.1 hstorable.1)
      (hrest.unfolds hsmall hvalid hlegible.2 hstorable.2)

end

mutual

/-- **Nothing else is read back** of what is laid out, and nothing at all if the length of
one of its runs cannot be read. -/
theorem Lays.eq_of_unfolds {index : Nat} {tree other : Tree}
    (h : Lays raw policy part index tree) (hsmall : raw.Small) (hvalid : policy.Valid)
    (hstorable : tree.Storable) (hother : Unfolds raw.regions index other) :
    tree = other ∧ tree.Legible policy := by
  cases h with
  | @node _ _ _ held _ hstores _ _ hchildren =>
    cases hother with
    | node hhead hslots htrees =>
      have hlegible := hstores.legible_of_childSlots hsmall.args hvalid hslots
      rw [hstores.childSlots hsmall hvalid hlegible (fun s hs => hchildren.storable hstorable.2 hs)
        fun child hchild => hchildren.index_lt hchild] at hslots
      rw [hstores.headOf hsmall hstorable.1] at hhead
      cases hslots
      cases hhead
      obtain ⟨rfl, hrest⟩ := hchildren.eq_of_unfolds hsmall hvalid hstorable.2 htrees
      exact ⟨rfl, hchildren.map_type ▸ hlegible, hrest⟩

theorem SlotsLay.eq_of_unfolds {held : List Slot} {trees others : List Tree}
    (h : SlotsLay raw policy part held trees) (hsmall : raw.Small) (hvalid : policy.Valid)
    (hstorable : Tree.AllStorable trees) (hothers : SlotsUnfold raw.regions held others) :
    trees = others ∧ Tree.AllLegible policy trees := by
  cases h with
  | nil =>
    cases hothers
    exact ⟨rfl, trivial⟩
  | scalar hrest =>
    cases hothers with
    | scalar hrest' =>
      obtain ⟨rfl, hlegible⟩ := hrest.eq_of_unfolds hsmall hvalid hstorable.2 hrest'
      exact ⟨rfl, trivial, hlegible⟩
  | expression htree hrest =>
    cases hothers with
    | expression htree' hrest' =>
      obtain ⟨rfl, hfirst⟩ := htree.eq_of_unfolds hsmall hvalid hstorable.1 htree'
      obtain ⟨rfl, hlegible⟩ := hrest.eq_of_unfolds hsmall hvalid hstorable.2 hrest'
      exact ⟨rfl, hfirst, hlegible⟩

end

end Laid

end FlatTree
