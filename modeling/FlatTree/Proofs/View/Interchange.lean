import FlatTree.Proofs.Buffer.Interchange
import FlatTree.Proofs.View.Lookup
import FlatTree.Proofs.View.Walk

/-!
# Interchangeable buffers answer alike

What is asked of an expression, by either way of decoding, is answered from its
records, its heads and what is read in the places of walks. Where two buffers have
these in common they give the same answer, and where they give none they fail with
the same error. They need not be sound for that, as long as they are as bad in the
same places. Interchangeable buffers have all this in common.

- `View.on`: the view of the expression of the same number in another buffer.
- `View.AnswersOn`: all that is asked of a view is answered alike in that buffer.
- `Regions.SameAnswers`: two buffers answer alike.
- `Regions.SameContent.sameAnswers`: buffers do in which the same is read.
- `Regions.Interchangeable.sameAnswers`: interchangeable buffers are such.
-/

namespace FlatTree

/-- The view of the expression of the same number in another buffer. -/
def View.on (s : Regions) (v : View) : View := { v with regions := s }

/-- The same item in another buffer. -/
def Item.on (s : Regions) : Item → Item
  | scalar value => scalar value
  | view v => view (v.on s)

/-- Everything that is asked of a view has the same answer in another buffer, or
fails there with the same error. -/
structure View.AnswersOn (v : View) (s : Regions) : Prop where
  head : (v.on s).head = v.head
  arity : (v.on s).arity = v.arity
  arguments : (v.on s).arguments.toList s = v.arguments.toList v.regions
  typedArguments : ∀ type,
    ((v.on s).typedArguments type).toList s = (v.typedArguments type).toList v.regions
  child : ∀ n, (v.on s).child n = Item.on s <$> v.child n
  lookup : ∀ key, (v.on s).lookup key = View.on s <$> v.lookup key
  field : ∀ key, (v.on s).field key = Item.on s <$> v.field key
  column : ∀ name, (v.on s).column name = View.on s <$> v.column name
  materialize : (v.on s).materialize = v.materialize

/-- Two buffers answer alike, whatever is asked of whichever expression. -/
structure Regions.SameAnswers (r s : Regions) : Prop where
  decodeExpression : ∀ maxDepth index,
    Eager.decodeExpression s maxDepth index = Eager.decodeExpression r maxDepth index
  ofIndex : ∀ index, View.ofIndex s index = View.on s <$> View.ofIndex r index
  view : ∀ index, (View.mk r index).AnswersOn s

/-! ## Steps over the same items -/

namespace View

variable {v w : View}

/-- A step to a child depends on what the cursor yields, and on nothing else. -/
theorem nth_congr {c c' : Cursor} (h : c'.toList w.regions = c.toList v.regions) (passed n : Nat) :
    w.nth c' passed n = v.nth c passed n := by
  induction n generalizing c c' passed with
  | zero =>
    cases hitems : c.toList v.regions with
    | nil =>
      rw [nth, nth, Cursor.next_of_toList_nil hitems, Cursor.next_of_toList_nil (h.trans hitems)]
    | cons item rest =>
      obtain ⟨_, hnext, -⟩ := Cursor.exists_next_of_toList_cons hitems
      obtain ⟨_, hnext', -⟩ := Cursor.exists_next_of_toList_cons (h.trans hitems)
      rw [nth, nth, hnext, hnext']
  | succ n ih =>
    cases hitems : c.toList v.regions with
    | nil =>
      rw [nth, nth, Cursor.next_of_toList_nil hitems, Cursor.next_of_toList_nil (h.trans hitems)]
    | cons item rest =>
      obtain ⟨_, hnext, hrest⟩ := Cursor.exists_next_of_toList_cons hitems
      obtain ⟨_, hnext', hrest'⟩ := Cursor.exists_next_of_toList_cons (h.trans hitems)
      rw [nth, nth, hnext, hnext']
      cases item with
      | error e => rfl
      | ok slot => exact ih (hrest'.trans hrest.symm) (passed + 1)

/-- What is found is in a buffer if it is the same there. -/
theorem exists_eq_mk_of_on {d : Decoded View} {r : Regions} (h : d = View.on r <$> d)
    (hfound : d = .ok w) : ∃ index, w = ⟨r, index⟩ := by
  rw [hfound] at h
  exact ⟨w.index, Except.ok.inj h⟩

theorem on_item (s : Regions) (slot : Slot) : (v.on s).item slot = (v.item slot).on s := by
  cases slot <;> rfl

variable {s : Regions}

theorem child_on (h : (v.on s).arguments.toList s = v.arguments.toList v.regions) (n : Nat) :
    (v.on s).child n = Item.on s <$> v.child n := by
  rw [child, child, nth_congr h, map_bind]
  simp only [on_item, map_pure]

/-- A lookup among the same items finds the same expression, if heads are the same. -/
theorem lookupFrom_on (hhead : ∀ index, (View.mk s index).head = (View.mk v.regions index).head)
    (key : String) : ∀ items : List (Decoded Slot),
      (v.on s).lookupFrom key items = View.on s <$> v.lookupFrom key items
  | [] => rfl
  | .error e :: rest => rfl
  | .ok (.scalar value) :: rest => lookupFrom_on hhead key rest
  | .ok (.expression index) :: rest => by
    show ((View.mk s index).head >>= fun head => if head = key then _ else _) =
      View.on s <$> ((View.mk v.regions index).head >>= fun head => if head = key then _ else _)
    rw [hhead, map_bind]
    congr 1
    funext head
    split
    · rfl
    · exact lookupFrom_on hhead key rest

/-- A named column over the same items has the same name and the same values. -/
theorem namedColumn_on (harity : (v.on s).arity = v.arity)
    (hitems : (v.on s).arguments.toList (v.on s).regions = v.arguments.toList v.regions) :
    (v.on s).namedColumn =
      (Option.map fun found => (found.1, found.2.on s)) <$> v.namedColumn := by
  rw [namedColumn, namedColumn, harity, map_bind]
  congr 1
  funext n
  split
  · rfl
  · cases hlist : v.arguments.toList v.regions with
    | nil =>
      rw [Cursor.next_of_toList_nil hlist, Cursor.next_of_toList_nil (hitems.trans hlist)]
      rfl
    | cons first rest =>
      obtain ⟨_, hnext, hrest⟩ := Cursor.exists_next_of_toList_cons hlist
      obtain ⟨_, hnext', hrest'⟩ := Cursor.exists_next_of_toList_cons (hitems.trans hlist)
      rw [hnext, hnext']
      cases first with
      | error e => rfl
      | ok first =>
        cases rest with
        | nil =>
          simp only [ok_bind, Cursor.next_of_toList_nil hrest, Cursor.next_of_toList_nil hrest']
          rfl
        | cons second rest =>
          obtain ⟨_, hsecond, -⟩ := Cursor.exists_next_of_toList_cons hrest
          obtain ⟨_, hsecond', -⟩ := Cursor.exists_next_of_toList_cons hrest'
          simp only [ok_bind, hsecond, hsecond']
          cases second with
          | error e => rfl
          | ok second =>
            cases first with
            | expression index => rfl
            | scalar value => cases value <;> cases second <;> rfl

/-- A column among the same items is the same, if heads and named columns are. -/
theorem columnFrom_on (hhead : ∀ index, (View.mk s index).head = (View.mk v.regions index).head)
    (hnamed : ∀ index, (View.mk s index).namedColumn =
      (Option.map fun found => (found.1, found.2.on s)) <$> (View.mk v.regions index).namedColumn)
    (name : String) : ∀ items : List (Decoded Slot),
      (v.on s).columnFrom name items = View.on s <$> v.columnFrom name items
  | [] => rfl
  | .error e :: rest => rfl
  | .ok (.scalar value) :: rest => columnFrom_on hhead hnamed name rest
  | .ok (.expression index) :: rest => by
    have ih := columnFrom_on hhead hnamed name rest
    rw [columnFrom, columnFrom, ok_bind, ok_bind]
    simp only [show (v.on s).regions = s from rfl, hnamed, hhead, map_bind, bind_map_left]
    congr 1
    funext found
    cases found with
    | none =>
      simp only [Option.map_none, map_bind]
      congr 1
      funext head
      split
      · rfl
      · exact ih
    | some found =>
      simp only [Option.map_some]
      split
      · rfl
      · exact ih

end View

/-! ## The loop over the same items -/

namespace Frame

variable {r s : Regions}

/-- With the same head an expression is opened alike, but for the cursor. -/
theorem start_of_headOf {index : Nat} (h : headOf s index = headOf r index) (depth : Nat)
    (isEntry : Bool) :
    start s index depth isEntry =
      (fun f => { f with cursor := Cursor.start s index none }) <$>
        start r index depth isEntry := by
  by_cases hdepth : defaultMaxDepth < depth
  · rw [start_of_lt hdepth, start_of_lt hdepth]
    rfl
  · rw [start, start, if_neg hdepth, if_neg hdepth, h]
    cases headOf r index <;> rfl

/-- Expressions with the same heads and the same items are finished alike. -/
theorem finish_congr (hhead : ∀ index, headOf s index = headOf r index)
    (hitems : ∀ index, (Cursor.start s index none).toList s =
      (Cursor.start r index none).toList r) :
    ∀ levels, finish s levels = finish r levels
  | 0 => rfl
  | levels + 1 => by
    funext index isEntry
    rw [finish, finish, finish_congr hhead hitems levels, start_of_headOf (hhead index)]
    cases hstart : start r index (defaultMaxDepth - levels) isEntry with
    | error e => rw [bind_map_left, error_bind, error_bind]
    | ok f =>
      obtain ⟨-, head, -, rfl⟩ := start_eq_ok_iff.mp hstart
      show drain _ { Frame.mk index _ (Cursor.start r index none) _ with
        cursor := Cursor.start s index none } _ = _
      rw [drain_cursor]
      exact congrArg _ (hitems index)

end Frame

/-! ## Buffers with the same content -/

/-- Buffers in which expressions have the same records and the same heads, and walks over
their children meet the same places, in which the same is read, faults included. -/
structure Regions.SameContent (r s : Regions) : Prop where
  expression : ∀ index, s.expression index = r.expression index
  children : ∀ index, s.children index = r.children index
  headOf : ∀ index, FlatTree.headOf s index = FlatTree.headOf r index
  walks : ∀ index range, r.children index = .ok range →
    walkPlaces ((Blocks.ofRange range).toList s) = walkPlaces ((Blocks.ofRange range).toList r)
  reads : ∀ index range place, r.children index = .ok range →
    .ok place ∈ walkPlaces ((Blocks.ofRange range).toList r) →
      Slot.read s place.1 place.2 = Slot.read r place.1 place.2

namespace Regions.SameContent

variable {r s : Regions}

theorem refl (r : Regions) : r.SameContent r where
  expression _ := rfl
  children _ := rfl
  headOf _ := rfl
  walks _ _ _ := rfl
  reads _ _ _ _ _ := rfl

/-! ### The eager decoder -/

theorem children_eq (h : r.SameContent s) (child : Nat → Decoded Value) (index : Nat) :
    Eager.children s child index = Eager.children r child index := by
  rw [Eager.children, Eager.children, h.children]
  cases hrange : r.children index with
  | error fault => rfl
  | ok range =>
    show Eager.blocks s child ((Blocks.ofRange range).toList s) =
      Eager.blocks r child ((Blocks.ofRange range).toList r)
    rw [Eager.blocks_eq_mapM, Eager.blocks_eq_mapM, h.walks index range hrange]
    refine mapM_congr_mem fun place hplace => ?_
    cases place with
    | error fault => rfl
    | ok place =>
      show Eager.placeValue s child place = Eager.placeValue r child place
      rw [Eager.placeValue, Eager.placeValue, h.reads index range place hrange hplace]

/-- A slot that is read as an expression tells its word. -/
theorem argWord_of_read {slot : Nat}
    (h : Slot.read s .expression slot = Slot.read r .expression slot) :
    s.argWord slot = r.argWord slot := by
  rw [Slot.read, Slot.read] at h
  cases hs : s.argWord slot <;> cases hr : r.argWord slot <;> rw [hs, hr] at h
  case ok.ok => exact congrArg Except.ok (UInt64.toNat_inj.mp (Slot.expression.inj (Except.ok.inj h)))
  all_goals cases h
  rfl

/-- A place refers to the entry that is read there. -/
theorem placeEntry_congr {shape : Shape} {index : Nat} {place : SlotType × Nat}
    (h : Slot.read s place.1 place.2 = Slot.read r place.1 place.2) :
    Eager.placeEntry s shape index place = Eager.placeEntry r shape index place := by
  rw [Eager.placeEntry, Eager.placeEntry]
  by_cases htype : place.1 = .expression
  · rw [htype] at h
    rw [argWord_of_read h]
  · rw [if_neg htype, if_neg htype]

theorem entries_eq (h : r.SameContent s) (shape : Shape) (index : Nat) :
    Eager.entries s shape index = Eager.entries r shape index := by
  rw [Eager.entries, Eager.entries, h.children]
  cases hrange : r.children index with
  | error fault => rfl
  | ok range =>
    show Eager.entryIndices s shape index ((Blocks.ofRange range).toList s) =
      Eager.entryIndices r shape index ((Blocks.ofRange range).toList r)
    rw [Eager.entryIndices_eq_mapM fun _ => Blocks.start_lt_stop_of_mem,
      Eager.entryIndices_eq_mapM fun _ => Blocks.start_lt_stop_of_mem, h.walks index range hrange]
    refine mapM_congr_mem fun place hplace => ?_
    cases place with
    | error fault => rfl
    | ok place => exact placeEntry_congr (h.reads index range place hrange hplace)

/-- With so many levels left, expressions decode alike, promoted and as entries. -/
theorem expression_eq (h : r.SameContent s) (limit : Nat) :
    ∀ levels, Eager.expression s limit levels = Eager.expression r limit levels ∧
      Eager.rawEntry s limit levels = Eager.rawEntry r limit levels
  | 0 => by
    constructor <;> funext index
    · rw [Eager.expression, Eager.expression]
    · rw [Eager.rawEntry, Eager.rawEntry]
  | levels + 1 => by
    obtain ⟨hexpression, hentry⟩ := h.expression_eq limit levels
    constructor <;> funext index
    · rw [Eager.expression, Eager.expression]
      simp only [h.headOf, h.children_eq, h.entries_eq, hexpression, hentry]
    · rw [Eager.rawEntry, Eager.rawEntry]
      simp only [h.headOf, h.children_eq, hexpression]

/-! ### Views -/

/-- Cursors over the children of an expression yield the same, errors included. -/
theorem toList_start (h : r.SameContent s) (index : Nat) (wanted : Option SlotType) :
    (Cursor.start s index wanted).toList s = (Cursor.start r index wanted).toList r :=
  Cursor.toList_start_congr h.expression (h.children index) (h.walks index)
    fun range place hrange hplace _ => h.reads index range place hrange hplace

theorem head (h : r.SameContent s) (index : Nat) :
    (View.mk s index).head = (View.mk r index).head := by
  rw [View.head, View.head, h.headOf]

theorem arity (h : r.SameContent s) (index : Nat) :
    (View.mk s index).arity = (View.mk r index).arity := by
  rw [View.arity, View.arity, h.children]

theorem lookup (h : r.SameContent s) (index : Nat) (key : String) :
    (View.mk s index).lookup key = View.on s <$> (View.mk r index).lookup key := by
  rw [View.lookup, View.lookup, View.typedArguments, View.typedArguments, h.toList_start]
  exact @View.lookupFrom_on ⟨r, index⟩ s h.head key _

theorem child (h : r.SameContent s) (index n : Nat) :
    (View.mk s index).child n = Item.on s <$> (View.mk r index).child n :=
  @View.child_on ⟨r, index⟩ s (h.toList_start index none) n

theorem field (h : r.SameContent s) (index : Nat) (key : String) :
    (View.mk s index).field key = Item.on s <$> (View.mk r index).field key := by
  rw [View.field, View.field, h.lookup, bind_map_left, map_bind]
  cases hentry : (View.mk r index).lookup key with
  | error e => rfl
  | ok entry =>
    obtain ⟨entry, rfl⟩ := View.exists_eq_mk_of_on ((refl r).lookup index key) hentry
    exact h.child entry 0

theorem column (h : r.SameContent s) (index : Nat) (name : String) :
    (View.mk s index).column name = View.on s <$> (View.mk r index).column name := by
  rw [View.column, View.column, View.typedArguments, View.typedArguments, h.toList_start]
  refine @View.columnFrom_on ⟨r, index⟩ s h.head (fun index => ?_) name _
  exact @View.namedColumn_on ⟨r, index⟩ s (h.arity index) (h.toList_start index none)

theorem materialize (h : r.SameContent s) (index : Nat) :
    (View.mk s index).materialize = (View.mk r index).materialize := by
  rw [View.materialize_eq, View.materialize_eq]
  simp only [Frame.finish_congr h.headOf fun index => h.toList_start index none]

/-- **Buffers with the same content answer alike.** -/
theorem sameAnswers (h : r.SameContent s) : r.SameAnswers s where
  decodeExpression maxDepth index :=
    congrFun (h.expression_eq maxDepth (maxDepth + 1)).1 index
  ofIndex index := by
    rw [View.ofIndex, View.ofIndex, h.expression, map_bind]
    rfl
  view index := {
    head := h.head index
    arity := h.arity index
    arguments := h.toList_start index none
    typedArguments := fun type => h.toList_start index (some type)
    child := h.child index
    lookup := h.lookup index
    field := h.field index
    column := h.column index
    materialize := h.materialize index }

end Regions.SameContent

theorem Regions.SameAnswers.refl (r : Regions) : r.SameAnswers r :=
  (SameContent.refl r).sameAnswers

/-! ## Interchangeable buffers -/

namespace Regions.Interchangeable

variable {r s : Regions}

/-- Interchangeable buffers have the same content. -/
theorem sameContent (h : r.Interchangeable s) : r.SameContent s where
  expression := h.expression
  children := h.children
  headOf := h.headOf
  walks index range hrange := by
    obtain ⟨_, ⟨blocks, hblocks, rfl⟩, ⟨blocks', hblocks', hplaces⟩⟩ := h.walks index range hrange
    rw [hblocks, hblocks', walkPlaces_map_ok, walkPlaces_map_ok, hplaces]
  reads index range place hrange hplace := by
    obtain ⟨_, ⟨blocks, hblocks, rfl⟩, -⟩ := h.walks index range hrange
    rw [hblocks, walkPlaces_map_ok] at hplace
    obtain ⟨_, hmem, heq⟩ := List.mem_map.mp hplace
    cases heq
    exact h.read hrange ⟨blocks, hblocks, rfl⟩ hmem

/-- **Interchangeable buffers answer alike.** -/
theorem sameAnswers (h : r.Interchangeable s) : r.SameAnswers s :=
  h.sameContent.sameAnswers

end Regions.Interchangeable

end FlatTree
