import FlatTree.Proofs.Decode.Unfolding

/-!
# Decoding is unfolding and promotion

The eager decoder reads, counts levels, promotes and fails in four functions
that call each other. Seen from outside it does two things one after the other:
it unfolds an expression to a raw tree, and it promotes that tree.

- `Eager.decodesUnfolding`: with so many levels left, decoding succeeds exactly
  on the expressions that unfold to a promotable tree with at most as many
  levels, and the value is that of the tree.
- `Eager.decodeExpression_eq_ok`: the same with all levels of the limit left.

From there the limit on nesting can be said in the terms of the buffer, as a
bound on its chains of references.

The proof is an induction on the levels left. An entry of an object or a table
takes a level too but is not promoted, so its half of the invariant speaks of
its arguments.
-/

namespace FlatTree

/-- The value of what a slot holds, with `child` for the expressions. -/
def Slot.value (child : Nat → Decoded Value) : Slot → Decoded Value
  | .scalar value => .ok (.scalar value)
  | .expression index => child index

namespace Eager

variable {r : Regions}

/-! ## Children and entries -/

theorem slots_eq_ok {child : Nat → Decoded Value} {type : SlotType} :
    ∀ {places : List Nat} {values : List Value},
      slots r child type places = .ok values ↔
        ∃ held, places.mapM (Slot.read r type) = .ok held ∧
          held.mapM (Slot.value child) = .ok values
  | [], values => by
    simp [slots]
  | place :: rest, values => by
    -- Scalars and expressions are read in the same way, up to what they decode to.
    have hread : slots r child type (place :: rest) =
        (Decoded.lift (Slot.read r type place) >>= fun s => s.value child >>= fun value =>
          slots r child type rest >>= fun others => pure (value :: others)) := by
      rw [slots]
      congr 1
      funext s
      cases s <;> rfl
    rw [hread]
    constructor
    · intro h
      obtain ⟨s, hs, h⟩ := bind_eq_ok.mp h
      obtain ⟨value, hvalue, h⟩ := bind_eq_ok.mp h
      obtain ⟨others, hothers, h⟩ := bind_eq_ok.mp h
      obtain ⟨held, hheld, hvalues⟩ := slots_eq_ok.mp hothers
      cases pure_eq_ok.mp h
      refine ⟨s :: held, ?_, ?_⟩
      · rw [List.mapM_cons, Decoded.lift_eq_ok.mp hs, ok_bind, hheld]
        rfl
      · rw [List.mapM_cons, hvalue, ok_bind, hvalues]
        rfl
    · rintro ⟨held, hheld, hvalues⟩
      rw [List.mapM_cons] at hheld
      obtain ⟨s, hs, hheld⟩ := bind_eq_ok.mp hheld
      obtain ⟨rest', hrest, hheld⟩ := bind_eq_ok.mp hheld
      cases pure_eq_ok.mp hheld
      rw [List.mapM_cons] at hvalues
      obtain ⟨value, hvalue, hvalues⟩ := bind_eq_ok.mp hvalues
      obtain ⟨others, hothers, hvalues⟩ := bind_eq_ok.mp hvalues
      cases pure_eq_ok.mp hvalues
      rw [Decoded.lift_eq_ok.mpr hs, ok_bind, hvalue, ok_bind,
        slots_eq_ok.mpr ⟨rest', hrest, hothers⟩]
      rfl

theorem blocks_eq_ok {child : Nat → Decoded Value} :
    ∀ {items : List (Except Fault Block)} {values : List Value},
      blocks r child items = .ok values ↔
        ∃ held, r.walkSlots items = .ok held ∧ held.mapM (Slot.value child) = .ok values
  | [], values => by
    simp [blocks, Regions.walkSlots]
  | item :: rest, values => by
    rw [blocks]
    constructor
    · intro h
      obtain ⟨block, hblock, h⟩ := bind_eq_ok.mp h
      obtain ⟨first, hfirst, h⟩ := bind_eq_ok.mp h
      obtain ⟨others, hothers, h⟩ := bind_eq_ok.mp h
      cases pure_eq_ok.mp h
      obtain ⟨held, hheld, hvalues⟩ := slots_eq_ok.mp hfirst
      obtain ⟨held', hheld', hvalues'⟩ := blocks_eq_ok.mp hothers
      refine ⟨held ++ held', Regions.walkSlots_cons.mpr
        ⟨block, held, held', Decoded.lift_eq_ok.mp hblock, hheld, hheld', rfl⟩, ?_⟩
      rw [List.mapM_append, hvalues, ok_bind, hvalues']
      rfl
    · rintro ⟨all, hall, hvalues⟩
      obtain ⟨block, held, held', rfl, hheld, hheld', rfl⟩ := Regions.walkSlots_cons.mp hall
      rw [List.mapM_append] at hvalues
      obtain ⟨first, hfirst, hvalues⟩ := bind_eq_ok.mp hvalues
      obtain ⟨others, hothers, hvalues⟩ := bind_eq_ok.mp hvalues
      cases pure_eq_ok.mp hvalues
      show (slots r child block.type block.slots.toList >>= _) = _
      rw [slots_eq_ok.mpr ⟨held, hheld, hfirst⟩, ok_bind,
        blocks_eq_ok.mpr ⟨held', hheld', hothers⟩]
      rfl

/-- The children are decoded exactly when the slots are readable and what they
hold is decoded. -/
theorem children_eq_ok {child : Nat → Decoded Value} {index : Nat} {values : List Value} :
    children r child index = .ok values ↔
      ∃ held, r.childSlots index = .ok held ∧ held.mapM (Slot.value child) = .ok values := by
  rw [children]
  constructor
  · intro h
    obtain ⟨range, hrange, h⟩ := bind_eq_ok.mp h
    obtain ⟨held, hheld, hvalues⟩ := blocks_eq_ok.mp h
    exact ⟨held, Regions.childSlots_eq_ok.mpr ⟨range, Decoded.lift_eq_ok.mp hrange, hheld⟩,
      hvalues⟩
  · rintro ⟨held, hheld, hvalues⟩
    obtain ⟨range, hrange, hheld⟩ := Regions.childSlots_eq_ok.mp hheld
    rw [hrange]
    exact blocks_eq_ok.mpr ⟨held, hheld, hvalues⟩

/-- The words of slots are those of the expressions that they hold. -/
theorem mapM_argWord_eq_ok {places : List Nat} {held : List Slot} :
    places.mapM (Slot.read r .expression) = .ok held ↔
      ∃ words, (places.mapM fun slot => Decoded.lift (r.argWord slot)) = .ok words ∧
        held = words.map fun word => .expression word.toNat := by
  rw [mapM_eq_ok]
  constructor
  · intro h
    induction h with
    | nil => exact ⟨[], rfl, rfl⟩
    | cons hread _ ih =>
      obtain ⟨word, hword, rfl⟩ := Slot.read_expression.mp hread
      obtain ⟨words, hwords, rfl⟩ := ih
      refine ⟨word :: words, ?_, rfl⟩
      rw [List.mapM_cons, Decoded.lift_eq_ok.mpr hword, ok_bind, hwords]
      rfl
  · rintro ⟨words, hwords, rfl⟩
    have hall := mapM_eq_ok.mp hwords
    -- The induction is on the reads one by one, and not on their outcome.
    clear hwords
    induction hall with
    | nil => exact .nil
    | cons hword _ ih =>
      exact .cons (Slot.read_expression.mpr ⟨_, Decoded.lift_eq_ok.mp hword, rfl⟩) ih

/-- A block of expressions holds what its words say. -/
theorem blockSlots_eq_ok_of_expression {block : Block} (htype : block.type = .expression)
    {held : List Slot} :
    r.blockSlots block = .ok held ↔
      ∃ words, (block.slots.toList.mapM fun slot => Decoded.lift (r.argWord slot)) = .ok words ∧
        held = (words.map UInt64.toNat).map .expression := by
  rw [Regions.blockSlots, htype]
  simp only [List.map_map]
  exact mapM_argWord_eq_ok

/-- The first slot of a block holds something of its type. -/
theorem exists_cons_of_blockSlots {block : Block} {held : List Slot}
    (hsize : block.slots.start < block.slots.stop) (h : r.blockSlots block = .ok held) :
    ∃ s rest, held = s :: rest ∧ s.type = block.type := by
  obtain ⟨others, hothers⟩ := SlotRange.toList_eq_cons hsize
  rw [Regions.blockSlots, hothers, mapM_eq_ok] at h
  cases h with
  | cons hread _ => exact ⟨_, _, rfl, Slot.type_of_read hread⟩

theorem entryIndices_cons {shape : Shape} {index : Nat} {block : Block}
    {rest : List (Except Fault Block)} (htype : block.type = .expression) :
    entryIndices r shape index (.ok block :: rest) =
      ((block.slots.toList.mapM fun slot => Decoded.lift (r.argWord slot)) >>= fun words =>
        entryIndices r shape index rest >>= fun later =>
          pure (words.map UInt64.toNat ++ later)) := by
  obtain ⟨type, slots⟩ := block
  cases htype
  rfl

theorem entryIndices_cons_ne {shape : Shape} {index : Nat} {block : Block}
    {rest : List (Except Fault Block)} (htype : block.type ≠ .expression) :
    entryIndices r shape index (.ok block :: rest) =
      .error (.ofCause (.malformedShape shape index .notAnExpression)) := by
  obtain ⟨type, slots⟩ := block
  cases type with
  | expression => exact absurd rfl htype
  | _ => rfl

/-- A walk whose blocks are not empty has only entries exactly when every slot
of it holds an expression. -/
theorem entryIndices_eq_ok {shape : Shape} {index : Nat} :
    ∀ {items : List (Except Fault Block)} {indices : List Nat},
      (∀ block, .ok block ∈ items → block.slots.start < block.slots.stop) →
        (entryIndices r shape index items = .ok indices ↔
          r.walkSlots items = .ok (indices.map .expression))
  | [], indices, _ => by
    rw [entryIndices, Regions.walkSlots, pure_eq_ok, pure_eq_ok]
    cases indices <;> simp
  | .error fault :: rest, indices, _ => by
    rw [Regions.walkSlots_cons]
    constructor
    · intro h
      cases h
    · rintro ⟨block, _, _, h, -⟩
      cases h
  | .ok block :: rest, indices, hblocks => by
    have ih : ∀ {indices : List Nat}, entryIndices r shape index rest = .ok indices ↔
        r.walkSlots rest = .ok (indices.map .expression) :=
      entryIndices_eq_ok fun b hb => hblocks b (List.mem_cons_of_mem _ hb)
    rw [Regions.walkSlots_cons]
    by_cases htype : block.type = .expression
    · rw [entryIndices_cons htype]
      constructor
      · intro h
        obtain ⟨words, hwords, h⟩ := bind_eq_ok.mp h
        obtain ⟨later, hlater, h⟩ := bind_eq_ok.mp h
        cases pure_eq_ok.mp h
        exact ⟨block, _, _, rfl, (blockSlots_eq_ok_of_expression htype).mpr ⟨words, hwords, rfl⟩,
          ih.mp hlater, List.map_append⟩
      · rintro ⟨_, first, later, heq, hfirst, hlater, hall⟩
        cases heq
        -- What this block holds is the first part of all that the walk holds.
        obtain ⟨now, after, rfl, rfl, rfl⟩ := List.map_eq_append_iff.mp hall
        obtain ⟨words, hwords, hnow⟩ := (blockSlots_eq_ok_of_expression htype).mp hfirst
        have heq : now = words.map UInt64.toNat := by
          refine List.map_injective_iff.mpr (fun a b hab => ?_) hnow
          cases hab
          rfl
        refine bind_eq_ok.mpr ⟨words, hwords, bind_eq_ok.mpr ⟨after, ih.mpr hlater, ?_⟩⟩
        rw [heq]
        rfl
    · -- The block has a first slot, and that holds no expression.
      refine iff_of_false (fun h => ?_) ?_
      · rw [entryIndices_cons_ne htype] at h
        cases h
      · rintro ⟨_, first, later, heq, hfirst, hlater, hall⟩
        cases heq
        obtain ⟨s, others, rfl, hkind⟩ :=
          exists_cons_of_blockSlots (hblocks block List.mem_cons_self) hfirst
        cases indices with
        | nil => cases hall
        | cons i indices =>
          obtain ⟨rfl, -⟩ := List.cons.inj hall
          exact htype hkind.symm

/-- The entries of an object or a table are all its slots, which must hold
expressions. -/
theorem entries_eq_ok {shape : Shape} {index : Nat} {indices : List Nat} :
    entries r shape index = .ok indices ↔
      r.childSlots index = .ok (indices.map .expression) := by
  rw [entries, Regions.childSlots_eq_ok, bind_eq_ok]
  constructor
  · rintro ⟨range, hrange, h⟩
    exact ⟨range, Decoded.lift_eq_ok.mp hrange,
      (entryIndices_eq_ok fun _ => Blocks.start_lt_stop_of_mem).mp h⟩
  · rintro ⟨range, hrange, h⟩
    exact ⟨range, Decoded.lift_eq_ok.mpr hrange,
      (entryIndices_eq_ok fun _ => Blocks.start_lt_stop_of_mem).mpr h⟩

/-- A map is collected exactly when every entry is decoded. -/
theorem collect_eq_ok {entry : Nat → Decoded (String × Value)} :
    ∀ {indices : List Nat} {map result : Entries Value},
      collect entry indices map = .ok result ↔
        ∃ found, indices.mapM entry = .ok found ∧
          result = found.foldl (fun m e => Entries.insertFirst e.1 e.2 m) map
  | [], map, result => by
    rw [collect, pure_eq_ok, List.mapM_nil]
    constructor
    · rintro rfl
      exact ⟨[], rfl, rfl⟩
    · rintro ⟨found, hfound, rfl⟩
      cases pure_eq_ok.mp hfound
      rfl
  | index :: rest, map, result => by
    rw [collect, List.mapM_cons]
    constructor
    · intro h
      obtain ⟨⟨key, value⟩, hentry, h⟩ := bind_eq_ok.mp h
      obtain ⟨found, hfound, rfl⟩ := collect_eq_ok.mp h
      refine ⟨(key, value) :: found, ?_, rfl⟩
      rw [hentry, ok_bind, hfound]
      rfl
    · rintro ⟨found, h, rfl⟩
      obtain ⟨⟨key, value⟩, hentry, h⟩ := bind_eq_ok.mp h
      obtain ⟨found', hfound', h⟩ := bind_eq_ok.mp h
      cases pure_eq_ok.mp h
      rw [hentry, ok_bind]
      exact collect_eq_ok.mpr ⟨found', hfound', rfl⟩

/-! ## The induction on the levels left -/

/-- With so many levels left, an expression decodes to the value of the tree it
unfolds to, and an entry to the values of its arguments. -/
structure DecodesUnfolding (r : Regions) (limit levels : Nat) : Prop where
  expression : ∀ {index : Nat} {value : Value},
    Eager.expression r limit levels index = .ok value ↔
      ∃ tree, Unfolds r index tree ∧ tree.levels ≤ levels ∧ tree.promote = some value
  entry : ∀ {index : Nat} {head : String} {arguments : List Value},
    rawEntry r limit levels index = .ok (head, arguments) ↔
      ∃ trees, Unfolds r index (.node head trees) ∧ Tree.levelsAll trees + 1 ≤ levels ∧
        Tree.promoteAll trees = some arguments

variable {limit levels : Nat}

theorem mapM_value_eq_ok (h : DecodesUnfolding r limit levels) :
    ∀ {held : List Slot} {values : List Value},
      held.mapM (Slot.value (Eager.expression r limit levels)) = .ok values ↔
        ∃ trees, SlotsUnfold r held trees ∧ Tree.levelsAll trees ≤ levels ∧
          Tree.promoteAll trees = some values
  | [], values => by
    rw [List.mapM_nil, pure_eq_ok]
    constructor
    · rintro rfl
      exact ⟨[], .nil, Nat.zero_le _, rfl⟩
    · rintro ⟨trees, htrees, -, hvalues⟩
      cases htrees
      cases hvalues
      rfl
  | s :: rest, values => by
    rw [List.mapM_cons]
    constructor
    · intro hread
      obtain ⟨value, hvalue, hread⟩ := bind_eq_ok.mp hread
      obtain ⟨others, hothers, hread⟩ := bind_eq_ok.mp hread
      cases pure_eq_ok.mp hread
      obtain ⟨trees, htrees, hlevels, hpromote⟩ := (mapM_value_eq_ok h).mp hothers
      cases s with
      | scalar scalar =>
        cases hvalue
        refine ⟨.scalar scalar :: trees, .scalar htrees, ?_, ?_⟩
        · rw [Tree.levelsAll_cons, Tree.levels_scalar, Nat.zero_max]
          exact hlevels
        · exact Tree.promoteAll_cons.mpr ⟨_, _, rfl, hpromote, rfl⟩
      | expression index =>
        obtain ⟨tree, htree, hlevel, hvalue⟩ := h.expression.mp hvalue
        exact ⟨tree :: trees, .expression htree htrees, Nat.max_le.mpr ⟨hlevel, hlevels⟩,
          Tree.promoteAll_cons.mpr ⟨_, _, hvalue, hpromote, rfl⟩⟩
    · rintro ⟨trees, htrees, hlevels, hpromote⟩
      cases htrees with
      | scalar htrees =>
        rw [Tree.levelsAll_cons, Tree.levels_scalar, Nat.zero_max] at hlevels
        obtain ⟨value, others, hvalue, hothers, rfl⟩ := Tree.promoteAll_cons.mp hpromote
        cases hvalue
        show ((Except.ok _ : Decoded Value) >>= _) = _
        rw [ok_bind, (mapM_value_eq_ok h).mpr ⟨_, htrees, hlevels, hothers⟩]
        rfl
      | expression htree htrees =>
        obtain ⟨hlevel, hlevels⟩ := Nat.max_le.mp hlevels
        obtain ⟨value, others, hvalue, hothers, rfl⟩ := Tree.promoteAll_cons.mp hpromote
        show (Eager.expression r limit levels _ >>= _) = _
        rw [h.expression.mpr ⟨_, htree, hlevel, hvalue⟩, ok_bind,
          (mapM_value_eq_ok h).mpr ⟨_, htrees, hlevels, hothers⟩]
        rfl

/-- The children of an expression decode to the values of the trees below it. -/
theorem children_expression_eq_ok (h : DecodesUnfolding r limit levels) {index : Nat}
    {values : List Value} :
    children r (Eager.expression r limit levels) index = .ok values ↔
      ∃ held trees, r.childSlots index = .ok held ∧ SlotsUnfold r held trees ∧
        Tree.levelsAll trees ≤ levels ∧ Tree.promoteAll trees = some values := by
  rw [children_eq_ok]
  constructor
  · rintro ⟨held, hheld, hvalues⟩
    obtain ⟨trees, htrees⟩ := (mapM_value_eq_ok h).mp hvalues
    exact ⟨held, trees, hheld, htrees⟩
  · rintro ⟨held, trees, hheld, htrees⟩
    exact ⟨held, hheld, (mapM_value_eq_ok h).mpr ⟨trees, htrees⟩⟩

/-- Entries that are decoded one by one are read off the trees of their
expressions one by one, whatever it is that is read off a tree. -/
theorem mapM_entry_eq_ok {entry : Nat → Decoded (String × Value)}
    {IsEntry : Tree → String × Value → Prop}
    (h : ∀ {index : Nat} {found : String × Value}, entry index = .ok found ↔
      ∃ tree, Unfolds r index tree ∧ tree.levels ≤ levels ∧ IsEntry tree found) :
    ∀ {indices : List Nat} {found : List (String × Value)},
      indices.mapM entry = .ok found ↔
        ∃ trees, SlotsUnfold r (indices.map .expression) trees ∧
          Tree.levelsAll trees ≤ levels ∧ List.Forall₂ IsEntry trees found
  | [], found => by
    rw [List.mapM_nil, pure_eq_ok]
    constructor
    · rintro rfl
      exact ⟨[], .nil, Nat.zero_le _, .nil⟩
    · rintro ⟨trees, htrees, -, hfound⟩
      cases htrees
      cases hfound
      rfl
  | index :: rest, found => by
    rw [List.mapM_cons]
    constructor
    · intro hread
      obtain ⟨first, hfirst, hread⟩ := bind_eq_ok.mp hread
      obtain ⟨others, hothers, hread⟩ := bind_eq_ok.mp hread
      cases pure_eq_ok.mp hread
      obtain ⟨tree, htree, hlevel, hentry⟩ := h.mp hfirst
      obtain ⟨trees, htrees, hlevels, hentries⟩ := (mapM_entry_eq_ok h).mp hothers
      exact ⟨tree :: trees, .expression htree htrees, Nat.max_le.mpr ⟨hlevel, hlevels⟩,
        .cons hentry hentries⟩
    · rintro ⟨trees, htrees, hlevels, hentries⟩
      cases htrees with
      | expression htree htrees =>
        obtain ⟨hlevel, hlevels⟩ := Nat.max_le.mp hlevels
        cases hentries with
        | cons hentry hentries =>
          rw [h.mpr ⟨_, htree, hlevel, hentry⟩, ok_bind,
            (mapM_entry_eq_ok h).mpr ⟨_, htrees, hlevels, hentries⟩]
          rfl

/-- Slots that unfold to expressions only hold expressions only. -/
theorem eq_map_expression {IsEntry : Tree → String × Value → Prop}
    (hnode : ∀ value found, ¬ IsEntry (.scalar value) found) :
    ∀ {held : List Slot} {trees : List Tree} {found : List (String × Value)},
      SlotsUnfold r held trees → List.Forall₂ IsEntry trees found →
        ∃ indices : List Nat, held = indices.map .expression
  | _, _, _, .nil, _ => ⟨[], rfl⟩
  | _, _, _, .scalar _, .cons hentry _ => absurd hentry (hnode _ _)
  | _, _, _, @SlotsUnfold.expression _ index _ _ _ _ htrees, .cons _ hentries => by
    obtain ⟨indices, rfl⟩ := eq_map_expression hnode htrees hentries
    exact ⟨index :: indices, rfl⟩

/-- A map is decoded from the entries that the trees below an expression are. -/
theorem collect_entries_eq_ok {shape : Shape} {index : Nat}
    {entry : Nat → Decoded (String × Value)} {IsEntry : Tree → String × Value → Prop}
    (hnode : ∀ value found, ¬ IsEntry (.scalar value) found)
    (h : ∀ {index : Nat} {found : String × Value}, entry index = .ok found ↔
      ∃ tree, Unfolds r index tree ∧ tree.levels ≤ levels ∧ IsEntry tree found)
    {map : Entries Value} :
    (entries r shape index >>= fun indices => collect entry indices []) = .ok map ↔
      ∃ held trees found, r.childSlots index = .ok held ∧ SlotsUnfold r held trees ∧
        Tree.levelsAll trees ≤ levels ∧ List.Forall₂ IsEntry trees found ∧
        map = Entries.ofFirst found := by
  constructor
  · intro hread
    obtain ⟨indices, hindices, hread⟩ := bind_eq_ok.mp hread
    obtain ⟨found, hfound, rfl⟩ := collect_eq_ok.mp hread
    obtain ⟨trees, htrees, hlevels, hentries⟩ := (mapM_entry_eq_ok h).mp hfound
    exact ⟨_, trees, found, entries_eq_ok.mp hindices, htrees, hlevels, hentries, rfl⟩
  · rintro ⟨held, trees, found, hheld, htrees, hlevels, hentries, rfl⟩
    -- No scalar is an entry, so the slots hold expressions only.
    obtain ⟨indices, rfl⟩ := eq_map_expression hnode htrees hentries
    rw [entries_eq_ok.mpr hheld, ok_bind]
    exact collect_eq_ok.mpr ⟨found, (mapM_entry_eq_ok h).mpr ⟨trees, htrees, hlevels, hentries⟩,
      rfl⟩

/-- A decoded member of an object. -/
theorem member_eq_ok (h : DecodesUnfolding r limit levels) {index : Nat}
    {found : String × Value} :
    (rawEntry r limit levels index >>= fun raw =>
        objectEntry index raw.2 >>= fun value => pure (raw.1, value)) = .ok found ↔
      ∃ tree, Unfolds r index tree ∧ tree.levels ≤ levels ∧ tree.IsMember found := by
  constructor
  · intro hread
    obtain ⟨⟨key, arguments⟩, hraw, hread⟩ := bind_eq_ok.mp hread
    obtain ⟨value, hvalue, hread⟩ := bind_eq_ok.mp hread
    cases pure_eq_ok.mp hread
    obtain ⟨trees, htree, hlevels, hpromote⟩ := h.entry.mp hraw
    -- A member has one argument, and so one tree, as each argument has its tree.
    cases arguments with
    | nil => cases hvalue
    | cons first rest =>
      cases rest with
      | cons _ _ => cases hvalue
      | nil =>
        cases hvalue
        cases Tree.promoteAll_eq_some.mp hpromote with
        | @cons child _ _ _ hchild hrest =>
          cases hrest
          exact ⟨.node key [child], htree, hlevels, child, rfl, hchild⟩
  · obtain ⟨key, value⟩ := found
    rintro ⟨_, htree, hlevels, child, rfl, hchild⟩
    have hraw : rawEntry r limit levels index = .ok (key, [value]) :=
      h.entry.mpr ⟨[child], htree, hlevels, Tree.promoteAll_cons.mpr ⟨_, _, hchild, rfl, rfl⟩⟩
    rw [hraw]
    rfl

/-- A decoded column of a table. -/
theorem column_eq_ok (h : DecodesUnfolding r limit levels) {index : Nat}
    {found : String × Value} :
    (rawEntry r limit levels index >>= fun raw => pure (tableColumn raw.1 raw.2)) = .ok found ↔
      ∃ tree, Unfolds r index tree ∧ tree.levels ≤ levels ∧ tree.IsColumn found := by
  constructor
  · intro hread
    obtain ⟨⟨head, arguments⟩, hraw, hread⟩ := bind_eq_ok.mp hread
    cases pure_eq_ok.mp hread
    obtain ⟨trees, htree, hlevels, hpromote⟩ := h.entry.mp hraw
    exact ⟨_, htree, hlevels, head, trees, arguments, rfl, hpromote,
      (Tree.column_eq_tableColumn hpromote).symm⟩
  · rintro ⟨_, htree, hlevels, head, cells, values, rfl, hpromote, rfl⟩
    have hraw : rawEntry r limit levels index = .ok (head, values) :=
      h.entry.mpr ⟨cells, htree, hlevels, hpromote⟩
    rw [hraw, Tree.column_eq_tableColumn hpromote]
    rfl

/-- Decoding with one level more: the head decides what becomes of the children. -/
theorem expression_succ_eq_ok {index : Nat} {value : Value} :
    Eager.expression r limit (levels + 1) index = .ok value ↔
      ∃ head, headOf r index = .ok head ∧
        match Shape.ofHead head with
        | .list => ∃ items,
          children r (Eager.expression r limit levels) index = .ok items ∧ value = .list items
        | .object => ∃ map, (entries r .object index >>= fun indices =>
            collect (fun child => rawEntry r limit levels child >>= fun raw =>
              objectEntry child raw.2 >>= fun value => pure (raw.1, value)) indices []) = .ok map ∧
            value = .object map
        | .table => ∃ map, (entries r .table index >>= fun indices =>
            collect (fun child => rawEntry r limit levels child >>= fun raw =>
              pure (tableColumn raw.1 raw.2)) indices []) = .ok map ∧ value = .table map
        | .generic => ∃ arguments, children r (Eager.expression r limit levels) index =
            .ok arguments ∧ value = .expression head arguments := by
  rw [Eager.expression, Decoded.blaming_eq_ok, bind_eq_ok]
  refine exists_congr fun head => and_congr_right fun _ => ?_
  cases Shape.ofHead head with
  | list => exact bind_pure_eq_ok
  | object => exact (iff_of_eq (congrArg (· = _) (bind_assoc ..).symm)).trans bind_pure_eq_ok
  | table => exact (iff_of_eq (congrArg (· = _) (bind_assoc ..).symm)).trans bind_pure_eq_ok
  | generic => exact bind_pure_eq_ok

theorem rawEntry_succ_eq_ok {index : Nat} {head : String} {arguments : List Value} :
    rawEntry r limit (levels + 1) index = .ok (head, arguments) ↔
      headOf r index = .ok head ∧
        children r (Eager.expression r limit levels) index = .ok arguments := by
  rw [rawEntry, Decoded.blaming_eq_ok]
  constructor
  · intro h
    obtain ⟨head', hhead, h⟩ := bind_eq_ok.mp h
    obtain ⟨arguments', harguments, heq⟩ := bind_pure_eq_ok.mp h
    cases heq
    exact ⟨hhead, harguments⟩
  · rintro ⟨hhead, harguments⟩
    rw [hhead, ok_bind, harguments]
    rfl

/-- One level more takes the trees below an expression to the tree of it. -/
theorem expression_succ_eq_ok_iff (h : DecodesUnfolding r limit levels) {index : Nat}
    {value : Value} :
    Eager.expression r limit (levels + 1) index = .ok value ↔
      ∃ head held trees, headOf r index = .ok head ∧ r.childSlots index = .ok held ∧
        SlotsUnfold r held trees ∧ Tree.levelsAll trees ≤ levels ∧
        (Tree.node head trees).promote = some value := by
  rw [expression_succ_eq_ok]
  refine exists_congr fun head => ?_
  simp only [Tree.promote_node_eq_some]
  cases Shape.ofHead head with
  | list =>
    simp only [children_expression_eq_ok h]
    constructor
    · rintro ⟨hhead, items, ⟨held, trees, hheld, htrees, hlevels, hitems⟩, rfl⟩
      exact ⟨held, trees, hhead, hheld, htrees, hlevels, items, hitems, rfl⟩
    · rintro ⟨held, trees, hhead, hheld, htrees, hlevels, items, hitems, rfl⟩
      exact ⟨hhead, items, ⟨held, trees, hheld, htrees, hlevels, hitems⟩, rfl⟩
  | object =>
    simp only [collect_entries_eq_ok Tree.not_isMember_scalar (member_eq_ok h)]
    constructor
    · rintro ⟨hhead, _, ⟨held, trees, found, hheld, htrees, hlevels, hfound, rfl⟩, rfl⟩
      exact ⟨held, trees, hhead, hheld, htrees, hlevels, found, hfound, rfl⟩
    · rintro ⟨held, trees, hhead, hheld, htrees, hlevels, found, hfound, rfl⟩
      exact ⟨hhead, _, ⟨held, trees, found, hheld, htrees, hlevels, hfound, rfl⟩, rfl⟩
  | table =>
    simp only [collect_entries_eq_ok Tree.not_isColumn_scalar (column_eq_ok h)]
    constructor
    · rintro ⟨hhead, _, ⟨held, trees, found, hheld, htrees, hlevels, hfound, rfl⟩, rfl⟩
      exact ⟨held, trees, hhead, hheld, htrees, hlevels, found, hfound, rfl⟩
    · rintro ⟨held, trees, hhead, hheld, htrees, hlevels, found, hfound, rfl⟩
      exact ⟨hhead, _, ⟨held, trees, found, hheld, htrees, hlevels, hfound, rfl⟩, rfl⟩
  | generic =>
    simp only [children_expression_eq_ok h]
    constructor
    · rintro ⟨hhead, arguments, ⟨held, trees, hheld, htrees, hlevels, harguments⟩, rfl⟩
      exact ⟨held, trees, hhead, hheld, htrees, hlevels, arguments, harguments, rfl⟩
    · rintro ⟨held, trees, hhead, hheld, htrees, hlevels, arguments, harguments, rfl⟩
      exact ⟨hhead, arguments, ⟨held, trees, hheld, htrees, hlevels, harguments⟩, rfl⟩

theorem decodesUnfolding (r : Regions) (limit : Nat) :
    ∀ levels, DecodesUnfolding r limit levels
  | 0 => by
    -- Whatever unfolds has a level of its own.
    refine ⟨fun {index value} => ?_, fun {index head arguments} => ?_⟩
    · rw [Eager.expression]
      refine iff_of_false (fun h => by cases h) ?_
      rintro ⟨tree, htree, hlevels, -⟩
      obtain ⟨head, _, trees, rfl, -⟩ := htree.exists_node
      exact Nat.not_succ_le_zero _ hlevels
    · rw [rawEntry]
      refine iff_of_false (fun h => by cases h) ?_
      rintro ⟨trees, -, hlevels, -⟩
      exact Nat.not_succ_le_zero _ hlevels
  | levels + 1 => by
    have ih := decodesUnfolding r limit levels
    refine ⟨fun {index value} => ?_, fun {index head arguments} => ?_⟩
    · rw [expression_succ_eq_ok_iff ih]
      constructor
      · rintro ⟨head, held, trees, hhead, hheld, htrees, hlevels, hpromote⟩
        exact ⟨.node head trees, .node hhead hheld htrees, Nat.succ_le_succ hlevels, hpromote⟩
      · rintro ⟨tree, htree, hlevels, hpromote⟩
        obtain ⟨head, held, trees, rfl, hhead, hheld, htrees⟩ := htree.exists_node
        exact ⟨head, held, trees, hhead, hheld, htrees, Nat.le_of_succ_le_succ hlevels, hpromote⟩
    · -- An entry takes the level for its head, and its arguments are expressions.
      rw [rawEntry_succ_eq_ok, children_expression_eq_ok ih]
      constructor
      · rintro ⟨hhead, held, trees, hheld, htrees, hlevels, hpromote⟩
        exact ⟨trees, .node hhead hheld htrees, Nat.succ_le_succ hlevels, hpromote⟩
      · rintro ⟨trees, htree, hlevels, hpromote⟩
        obtain ⟨hhead, held, hheld, htrees⟩ := unfolds_node.mp htree
        exact ⟨hhead, held, trees, hheld, htrees, Nat.le_of_succ_le_succ hlevels, hpromote⟩

/-- Decoding with a limit on the nesting, by the tree. -/
theorem decodeExpression_eq_ok {index maxDepth : Nat} {value : Value} :
    decodeExpression r maxDepth index = .ok value ↔
      ∃ tree, Unfolds r index tree ∧ tree.nesting ≤ maxDepth ∧ tree.promote = some value := by
  -- The root has depth zero, so that there is a level more than the limit.
  rw [decodeExpression, (decodesUnfolding r maxDepth (maxDepth + 1)).expression]
  refine exists_congr fun tree => and_congr_right fun htree => ?_
  obtain ⟨head, _, trees, rfl, -⟩ := htree.exists_node
  exact and_congr_left' Nat.succ_le_succ_iff

/-- Decoding the root of a buffer, by the tree. -/
theorem decodeBuffer_eq_ok {bytes : ByteArray} {maxDepth : Nat} {value : Value} :
    decodeBuffer maxDepth bytes = .ok value ↔
      ∃ r tree, Regions.parse bytes = .ok r ∧ Unfolds r 0 tree ∧ tree.nesting ≤ maxDepth ∧
        tree.promote = some value := by
  rw [decodeBuffer, bind_eq_ok]
  constructor
  · rintro ⟨r, hparse, hdecode⟩
    obtain ⟨tree, htree⟩ := decodeExpression_eq_ok.mp hdecode
    exact ⟨r, tree, Decoded.lift_eq_ok.mp hparse, htree⟩
  · rintro ⟨r, tree, hparse, htree⟩
    exact ⟨r, Decoded.lift_eq_ok.mpr hparse, decodeExpression_eq_ok.mpr ⟨tree, htree⟩⟩

/-- **The decoder succeeds exactly on finite promotable trees**: an expression
decodes to a value if and only if it unfolds to a raw tree, no chain of
references from it is longer than the limit, and the tree promotes to the
value. On a cycle of references chains have no bound, so none is reachable. -/
theorem decodeExpression_eq_ok_iff_promote (r : Regions) (maxDepth index : Nat) (value : Value) :
    decodeExpression r maxDepth index = .ok value ↔
      ∃ tree, Unfolds r index tree ∧
        (∀ n target, r.Chain n index target → n ≤ maxDepth) ∧ tree.promote = some value := by
  rw [decodeExpression_eq_ok]
  exact exists_congr fun tree => and_congr_right fun htree => and_congr_left' htree.nesting_le_iff

end Eager

end FlatTree
