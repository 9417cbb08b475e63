import FlatTree.Proofs.View.Lookup

/-!
# Arguments one by one

A cursor keeps the block that it expands, the walk after it and an error that it has
still to yield, and it is called again and again, also after its end. What it yields is
nevertheless what two nested loops bring: over the blocks of the walk, and over the slots
of each block, until the first error. A step to a child stops in the middle of that.

- `View.itemAt`: what one slot is, with the expression blamed for what fails there.
- `View.traversal`: the two loops.
- `View.call`: one call on a cursor, with the cursor after it.
- `View.arguments_traverse`: the calls yield the traversal, which has as many items as
  there are slots if nothing fails.
- `View.child_eq_drained`: what a step to a child comes to, from what the calls yield.
-/

namespace FlatTree

/-! ## Outcomes place by place -/

section Outcome

variable {ε α : Type}

/-- Where the outcomes for all places are those of a list, and errors beyond it, the
places before a success are successes. -/
theorem exists_ok_of_lt {f : Nat → Except ε α} {as : List α} {fail : Nat → ε}
    (hf : ∀ n, f n = (as[n]?).elim (.error (fail n)) .ok) {m n : Nat} {a : α} (hm : m < n)
    (h : f n = .ok a) : ∃ b, f m = .ok b := by
  have hn : n < as.length := by
    by_contra hbeyond
    rw [hf, List.getElem?_eq_none (Nat.le_of_not_lt hbeyond)] at h
    cases h
  refine ⟨as[m], ?_⟩
  rw [hf, List.getElem?_eq_getElem]
  rfl

/-- An error among successes and at most one error after them is that error, and stands
beyond the successes. -/
theorem getElem?_append_error {as : List α} {e? : Option ε} {k : Nat} {e : ε}
    (h : (as.map .ok ++ e?.toList.map .error : List (Except ε α))[k]? = some (.error e)) :
    e? = some e ∧ as.length ≤ k := by
  by_cases hk : k < as.length
  · rw [List.getElem?_append_left (by simpa using hk), List.getElem?_map,
      List.getElem?_eq_getElem hk] at h
    cases h
  · refine ⟨?_, Nat.le_of_not_lt hk⟩
    rw [List.getElem?_append_right (by simpa using hk)] at h
    have hmem := List.mem_of_getElem? h
    simpa [eq_comm] using hmem

end Outcome

namespace Calls

variable {σ α β : Type} {call : σ → Option α × σ} {s : σ} {items : List α}

/-- What the calls yield is one list. -/
theorem Yield.unique {others : List α} (h : Yield call s items) (hothers : Yield call s others) :
    items = others :=
  List.ext_getElem? fun n => (h n).symm.trans (hothers n)

/-- Calls of which the answers are mapped go through the same states. -/
theorem Yield.map (h : Yield call s items) (f : α → β) :
    Yield (fun s => ((call s).1.map f, (call s).2)) s (items.map f) := by
  have hafter : ∀ n s, after (fun s => ((call s).1.map f, (call s).2)) s n = after call s n := by
    intro n
    induction n with
    | zero => exact fun _ => rfl
    | succ n ih => exact fun s => ih (call s).2
  intro n
  have hn : answer call s n = items[n]? := h n
  unfold answer at hn ⊢
  rw [hafter, List.getElem?_map, ← hn]

end Calls

/-! ## Calls on a cursor -/

namespace Cursor

variable {r : Regions}

/-- One call: what is yielded, and the cursor after it. A cursor that has nothing to
yield has passed all its blocks. -/
def call (r : Regions) (c : Cursor) : Option (Decoded Slot) × Cursor :=
  match c.next r with
  | some (item, rest) => (some item, rest)
  | none => (none, { c with current := noBlock, blocks := ⟨c.blocks.stop, c.blocks.stop⟩ })

theorem nextBlock_of_le {wanted : Option SlotType} {b : Blocks} (h : b.stop ≤ b.cursor) :
    nextBlock r wanted b = none := by
  have hnext : b.next r = none := if_pos h
  unfold nextBlock
  split
  · rfl
  · next heq => simp [hnext] at heq
  · next heq => simp [hnext] at heq

/-- The calls on a cursor yield what the cursor yields, and nothing more. -/
theorem yield_toList (r : Regions) (c : Cursor) : Calls.Yield (call r) c (c.toList r) := by
  fun_induction toList r c with
  | case1 c hnext =>
    have hpending : c.pending = none := by
      cases hp : c.pending with
      | none => rfl
      | some fault =>
        unfold next at hnext
        split at hnext
        · cases hnext
        · simp [hp] at hnext
    -- Nothing is left in the cursor after that call, so a further one leaves it as it is.
    have hfixed : ∀ b : Nat, next r { c with current := noBlock, blocks := ⟨b, b⟩ } = none := by
      intro b
      unfold next
      simp [noBlock, hpending, nextBlock_of_le]
    refine .nil (by rw [call, hnext]) (Calls.yield_nil_of_fixed ?_)
    rw [call, hfixed]
  | case2 c item rest hnext ih => exact .cons (by rw [call, hnext]) ih

end Cursor

/-! ## The traversal -/

namespace View

variable (v : View)

/-- A fault in the expression, which is blamed for it. -/
def failure {α : Type} (fault : Fault) : Decoded α :=
  .error ⟨.fault fault, some v.index⟩

/-- What a slot is under a type. An expression becomes a view, and must exist. -/
def itemAt (type : SlotType) (slot : Nat) : Decoded Item :=
  match Slot.read v.regions type slot with
  | .error fault => v.failure fault
  | .ok (.scalar value) => .ok (.scalar value)
  | .ok (.expression index) =>
    match v.regions.expression index with
    | .error fault => v.failure fault
    | .ok _ => .ok (.view ⟨v.regions, index⟩)

/-- The arguments by two loops, over the blocks of the walk and over the slots of each
block, until the first error. -/
def traversal : List (Decoded Item) :=
  match v.regions.children v.index with
  | .error fault => [v.failure fault]
  | .ok range =>
    untilError (((Blocks.ofRange range).toList v.regions).flatMap fun
      | .error fault => [v.failure fault]
      | .ok block => block.slots.toList.map (v.itemAt block.type))

/-- One call on a cursor over this buffer, which yields items. -/
def call (c : Cursor) : Option (Decoded Item) × Cursor :=
  ((c.call v.regions).1.map (v.item <$> ·), (c.call v.regions).2)

theorem item_decode (type : SlotType) (slot : Nat) :
    v.item <$> Decoded.blaming v.index (Decoded.lift (Cursor.decode v.regions type slot)) =
      v.itemAt type slot := by
  unfold itemAt Cursor.decode
  cases hread : Slot.read v.regions type slot with
  | error fault => rfl
  | ok s =>
    cases s with
    | scalar value => rfl
    | expression index =>
      simp only [ok_bind]
      cases v.regions.expression index <;> rfl

/-- What a cursor over all arguments yields is the traversal. -/
theorem map_item_arguments : (v.arguments.toList v.regions).map (v.item <$> ·) = v.traversal := by
  unfold arguments traversal
  cases hrange : v.regions.children v.index with
  | error fault =>
    rw [Cursor.toList_start_error hrange]
    rfl
  | ok range =>
    rw [Cursor.toList_start hrange, ← untilError_map, List.map_flatMap]
    refine congrArg untilError (List.flatMap_congr fun item _ => ?_)
    cases item with
    | error fault => rfl
    | ok block =>
      show (Cursor.blockItems v.regions v.index block).map (v.item <$> ·) = _
      rw [Cursor.blockItems, List.map_map]
      exact List.map_congr_left fun slot _ => v.item_decode block.type slot

/-- The calls on a cursor over this buffer yield its items. -/
theorem yield_call (c : Cursor) :
    Calls.Yield v.call c ((c.toList v.regions).map (v.item <$> ·)) :=
  (Cursor.yield_toList v.regions c).map (v.item <$> ·)

theorem yield_arguments : Calls.Yield v.call v.arguments v.traversal := by
  rw [← map_item_arguments]
  exact v.yield_call v.arguments

variable {v}

/-- A traversal without an error walks over all the child slots without a fault, and has
an item for each place. -/
theorem exists_tiles_of_traversal {items : List Item} (h : v.traversal = items.map .ok) :
    ∃ range blocks, v.regions.children v.index = .ok range ∧
      (Blocks.ofRange range).toList v.regions = blocks.map .ok ∧
      Tiles range.start blocks range.stop ∧
      items.map .ok =
        (blocks.flatMap Block.places).map fun place => v.itemAt place.1 place.2 := by
  unfold traversal at h
  cases hrange : v.regions.children v.index with
  | error fault =>
    simp only [hrange] at h
    exact absurd h error_cons_ne_map_ok
  | ok range =>
    simp only [hrange, untilError_eq_map_ok] at h
    obtain ⟨blocks, last, hparses, hend⟩ :=
      Blocks.exists_parses (r := v.regions) (b := Blocks.ofRange range)
        (Regions.stop_le_of_children hrange).1
    rcases hend with ⟨hblocks, rfl⟩ | ⟨⟨fault, hblocks⟩, -⟩
    · refine ⟨range, blocks, rfl, hblocks, hparses.tiles, ?_⟩
      rw [← h, hblocks, List.flatMap_map, List.map_flatMap]
      refine List.flatMap_congr fun block _ => ?_
      rw [Block.places, List.map_map]
      rfl
    · -- The fault of the walk would be among the items.
      have hmem : v.failure fault ∈ items.map Except.ok := by
        rw [← h, hblocks]
        simp
      simp [failure] at hmem

/-- Where nothing fails there are as many items as child slots. -/
theorem arity_of_traversal {items : List Item} (h : v.traversal = items.map .ok) :
    v.arity = .ok items.length := by
  obtain ⟨range, blocks, hrange, -, htiles, hitems⟩ := exists_tiles_of_traversal h
  have hlength : items.length = range.stop - range.start := by
    have hplaces := congrArg List.length htiles.map_snd_places
    have hsame := congrArg List.length hitems
    simp only [List.length_map, List.length_range'] at hplaces hsame
    omega
  unfold arity
  rw [hrange, hlength]
  rfl

/-- **The calls yield the traversal**: two loops, over the blocks of the walk and over the
slots of each block, until the first error, which blames the expression; and nothing after
that. If nothing fails there are as many items as child slots, the item `k` places after
the first is what the slot `k` places after the first one holds, and each block, a run as
well, has its slots among the items, one item for each. -/
theorem arguments_traverse (v : View) :
    Calls.Yield v.call v.arguments v.traversal ∧
      ∀ items : List Item, v.traversal = items.map .ok →
        v.arity = .ok items.length ∧
          ∃ range, v.regions.children v.index = .ok range ∧
            (∀ k item, items[k]? = some item →
              ∃ block, .ok block ∈ (Blocks.ofRange range).toList v.regions ∧
                range.start + k ∈ block.slots.toList ∧
                v.itemAt block.type (range.start + k) = .ok item) ∧
            ∀ block, .ok block ∈ (Blocks.ofRange range).toList v.regions →
              ((items.drop (block.slots.start - range.start)).take block.slots.size).map .ok =
                block.slots.toList.map (v.itemAt block.type) := by
  refine ⟨v.yield_arguments, fun items h => ⟨arity_of_traversal h, ?_⟩⟩
  obtain ⟨range, blocks, hrange, hblocks, htiles, hitems⟩ := exists_tiles_of_traversal h
  have hmem : ∀ block, .ok block ∈ (Blocks.ofRange range).toList v.regions ↔ block ∈ blocks := by
    intro block
    rw [hblocks]
    simp
  refine ⟨range, hrange, fun k item hitem => ?_, fun block hblock => ?_⟩
  · have hat : ((blocks.flatMap Block.places).map fun place =>
        v.itemAt place.1 place.2)[k]? = some (.ok item) := by
      simp [← hitems, hitem]
    rw [List.getElem?_map] at hat
    obtain ⟨place, hplace, heq⟩ := Option.map_eq_some_iff.mp hat
    have hslot := htiles.snd_of_getElem? hplace
    obtain ⟨block, hblock, hin⟩ := List.mem_flatMap.mp (List.mem_of_getElem? hplace)
    obtain ⟨slot, hslots, rfl⟩ := List.mem_map.mp hin
    simp only at hslot heq
    subst hslot
    exact ⟨block, (hmem block).mpr hblock, hslots, heq⟩
  · rw [List.map_take, List.map_drop, hitems, ← List.map_drop, ← List.map_take,
      htiles.take_drop_places ((hmem block).mp hblock), Block.places, List.map_map]
    rfl

/-- A row of a text, a run of three longs and an expression without arguments. -/
def runRow : RawBuffer where
  args := #[0, 4, 7, 8, 9, 1]
  tags := #[5, 3, 0xFF81, 3, 0xFFFF, 5]
  exprs := #[⟨0, 1, 6⟩, ⟨0, 6, 6⟩]
  strings := RawBuffer.textEntry "Row" ++ RawBuffer.textEntry "lead"

/-- What the row holds. -/
def runRowItems : List Item :=
  [.scalar (.string "lead"), .scalar (.long 7), .scalar (.long 8), .scalar (.long 9),
    .view ⟨runRow.regions, 1⟩]

theorem traversal_runRow : (View.mk runRow.regions 0).traversal = runRowItems.map .ok := by
  have hitems : (View.mk runRow.regions 0).arguments.toList runRow.regions =
      [.scalar (.string "lead"), .scalar (.long 7), .scalar (.long 8), .scalar (.long 9),
        .expression 1].map .ok := by decide +kernel
  rw [← map_item_arguments, hitems]
  rfl

/-- The row has five arguments, and a sixth call finds nothing. -/
theorem arguments_traverse_runRow :
    (View.mk runRow.regions 0).traversal = runRowItems.map .ok ∧
      (View.mk runRow.regions 0).arity = .ok 5 ∧
      Calls.answer (View.mk runRow.regions 0).call (View.mk runRow.regions 0).arguments 5 =
        none := by
  obtain ⟨hyield, hclean⟩ := arguments_traverse ⟨runRow.regions, 0⟩
  refine ⟨traversal_runRow, (hclean _ traversal_runRow).1, ?_⟩
  rw [hyield 5, traversal_runRow]
  rfl

/-! ## Steps to a child -/

/-- What a cursor over all arguments yields has one error at most, and it comes last. -/
theorem exists_held (v : View) :
    ∃ (held : List Slot) (e? : Option DecodeError),
      v.arguments.toList v.regions = held.map .ok ++ e?.toList.map .error := by
  unfold arguments
  cases hrange : v.regions.children v.index with
  | error fault =>
    rw [Cursor.toList_start_error hrange]
    exact ⟨[], some _, rfl⟩
  | ok range =>
    rw [Cursor.toList_start hrange]
    exact exists_untilError _

/-- The traversal has an item for each slot that a cursor over all arguments yields, and
the same error after them. -/
theorem traversal_of_held {held : List Slot} {e? : Option DecodeError}
    (h : v.arguments.toList v.regions = held.map .ok ++ e?.toList.map .error) :
    v.traversal = (held.map v.item).map .ok ++ e?.toList.map .error := by
  rw [← map_item_arguments, h, List.map_append, List.map_map, List.map_map, List.map_map]
  rfl

/-- A step to a child leads to the items that are yielded, and beyond them to the error
that comes after them, or out of range. -/
theorem child_of_held {held : List Slot} {e? : Option DecodeError}
    (h : v.arguments.toList v.regions = held.map .ok ++ e?.toList.map .error) (n : Nat) :
    v.child n = ((held.map v.item)[n]?).elim
      (.error (e?.getD (.ofCause (.indexOutOfRange n (held.map v.item).length)))) .ok := by
  unfold child
  rw [nth_of_toList h, List.getElem?_map, List.length_map, Nat.zero_add, Nat.zero_add]
  cases held[n]? <;> rfl

/-- **A step to a child stops in the middle of the calls**: where these yield items only,
as many as child slots, the `n`-th child is the `n`-th of them, or out of range; where an
error comes after some items, it is the outcome from there on. So all children before one
that is found are found, and from the first faulty one on all have the same fault. -/
theorem child_eq_drained (v : View) :
    (∃ items : List Item,
      (Calls.Yield v.call v.arguments (items.map .ok) ∧ v.arity = .ok items.length ∧
        ∀ n, v.child n =
          (items[n]?).elim (.error (.ofCause (.indexOutOfRange n items.length))) .ok) ∨
      ∃ e, Calls.Yield v.call v.arguments (items.map .ok ++ [.error e]) ∧
        ∀ n, v.child n = (items[n]?).elim (.error e) .ok) ∧
      (∀ m n item, m < n → v.child n = .ok item → ∃ earlier, v.child m = .ok earlier) ∧
      ∀ k n e, Calls.answer v.call v.arguments k = some (.error e) → k ≤ n →
        v.child n = .error e := by
  have hyield := v.yield_arguments
  obtain ⟨held, e?, hheld⟩ := v.exists_held
  have htraversal := traversal_of_held hheld
  have hchild := child_of_held hheld
  refine ⟨⟨held.map v.item, ?_⟩, fun m n item => exists_ok_of_lt hchild, ?_⟩
  · cases e? with
    | none =>
      have hclean : v.traversal = (held.map v.item).map .ok :=
        htraversal.trans (List.append_nil _)
      exact .inl ⟨hclean ▸ hyield, arity_of_traversal hclean, hchild⟩
    | some e => exact .inr ⟨e, htraversal ▸ hyield, hchild⟩
  · intro k n e hk hn
    rw [hyield, htraversal] at hk
    obtain ⟨rfl, hlast⟩ := getElem?_append_error hk
    rw [hchild, List.getElem?_eq_none (Nat.le_trans hlast hn)]
    rfl

/-- A row of two longs, a symbol of which the text lies past the heap, and a long. -/
def tornRow : RawBuffer where
  args := #[0, 7, 8, 999, 9]
  tags := #[5, 1, 1, 4, 1]
  exprs := #[⟨0, 1, 5⟩]
  strings := RawBuffer.textEntry "Row"

/-- The torn symbol is what every position from its own on comes to. -/
theorem child_eq_drained_tornRow :
    ((0 < 1 ∧ (View.mk tornRow.regions 0).child 1 = .ok (.scalar (.long 8))) ∧
        ∃ item, (View.mk tornRow.regions 0).child 0 = .ok item) ∧
      (Calls.answer (View.mk tornRow.regions 0).call (View.mk tornRow.regions 0).arguments 2 =
          some (.error ⟨.fault (.textOutOfRange 999 4), some 0⟩) ∧ 2 ≤ 3) ∧
        (View.mk tornRow.regions 0).child 3 =
          .error ⟨.fault (.textOutOfRange 999 4), some 0⟩ := by
  have hsecond : (View.mk tornRow.regions 0).nth (View.mk tornRow.regions 0).arguments 0 1 =
      .ok (.scalar (.long 8)) := by decide +kernel
  have hchild : (View.mk tornRow.regions 0).child 1 = .ok (.scalar (.long 8)) := by
    rw [child, hsecond]
    rfl
  have hitems : (View.mk tornRow.regions 0).arguments.toList tornRow.regions =
      [.ok (.scalar (.long 7)), .ok (.scalar (.long 8)),
        .error ⟨.fault (.textOutOfRange 999 4), some 0⟩] := by decide +kernel
  have hanswer : Calls.answer (View.mk tornRow.regions 0).call
      (View.mk tornRow.regions 0).arguments 2 =
        some (.error ⟨.fault (.textOutOfRange 999 4), some 0⟩) := by
    rw [(View.mk tornRow.regions 0).yield_arguments 2, ← map_item_arguments, hitems]
    rfl
  obtain ⟨-, hearlier, hlater⟩ := child_eq_drained ⟨tornRow.regions, 0⟩
  exact ⟨⟨⟨by decide, hchild⟩, hearlier 0 1 _ (by decide) hchild⟩, ⟨hanswer, by decide⟩,
    hlater 2 3 _ hanswer (by decide)⟩

end View

end FlatTree
