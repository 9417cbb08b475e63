import FlatTree.View.Basic
import FlatTree.Proofs.Buffer.Tiling
import FlatTree.Proofs.View.Traversal
import FlatTree.Proofs.Decode.Unfolding
import FlatTree.Proofs.Tree.Lookup

/-!
# Steps of a view in a raw tree

Below an expression that unfolds nothing is faulty. So a step of a view of it is
a step in its tree: it finds a view of the part that the tree has there, or fails
as the tree has no such part.

- `Follows`: an outcome of decoding is the one that is asked for, down to the cause
  of a failure.
- `Matches`: an outcome of decoding matches an optional one, whatever the cause.
- `View.Shows`, `Item.Shows`: a view shows the tree to which its expression unfolds.
- `View.Shows.follows_child`, `follows_lookup`, `follows_column`, and
  `Item.Shows.follows_toView`: the steps of a view follow those in its tree.
-/

namespace FlatTree

/-! ## Outcomes with and without an error -/

/-- An outcome of decoding matches an optional one: both are there and related, or
neither is. -/
inductive Matches {α β : Type} (R : α → β → Prop) : Decoded α → Option β → Prop where
  | ok {a : α} {b : β} : R a b → Matches R (.ok a) (some b)
  | error {e : DecodeError} : Matches R (.error e) none

namespace Matches

variable {α β γ δ : Type} {R : α → β → Prop} {S : γ → δ → Prop}

/-- Chains match link by link. -/
theorem bind {d : Decoded α} {o : Option β} {f : α → Decoded γ} {g : β → Option δ}
    (h : Matches R d o) (hnext : ∀ {a b}, R a b → Matches S (f a) (g b)) :
    Matches S (d >>= f) (o >>= g) := by
  cases h with
  | ok hab => exact hnext hab
  | error => exact .error

theorem exists_of_ok {a : α} {o : Option β} (h : Matches R (.ok a) o) :
    ∃ b, o = some b ∧ R a b := by
  cases h with
  | ok hab => exact ⟨_, rfl, hab⟩

theorem exists_of_some {d : Decoded α} {b : β} (h : Matches R d (some b)) :
    ∃ a, d = .ok a ∧ R a b := by
  cases h with
  | ok hab => exact ⟨_, rfl, hab⟩

/-- Results that match by equality are the same. -/
theorem eq_ok_iff {d : Decoded α} {o : Option α} (h : Matches Eq d o) {a : α} :
    d = .ok a ↔ o = some a := by
  cases h with
  | ok hab =>
    rw [hab, Except.ok.injEq, Option.some.injEq]
  | error => exact iff_of_false (fun h => by cases h) (fun h => by cases h)

end Matches

/-- An outcome of decoding follows another: both have related results, or both fail
for the same cause, and no expression is blamed. -/
inductive Follows {α β : Type} (R : α → β → Prop) : Decoded α → Except Cause β → Prop where
  | ok {a : α} {b : β} : R a b → Follows R (.ok a) (.ok b)
  | error {cause : Cause} : Follows R (.error (.ofCause cause)) (.error cause)

/-- What an option holds, or the cause of a failure if it holds nothing. -/
def Cause.orElse {β : Type} (cause : Cause) (o : Option β) : Except Cause β :=
  o.elim (.error cause) .ok

namespace Follows

variable {α β γ δ : Type} {R : α → β → Prop} {S : γ → δ → Prop}

/-- Chains follow one another link by link. -/
theorem bind {d : Decoded α} {e : Except Cause β} {f : α → Decoded γ} {g : β → Except Cause δ}
    (h : Follows R d e) (hnext : ∀ {a b}, R a b → Follows S (f a) (g b)) :
    Follows S (d >>= f) (e >>= g) := by
  cases h with
  | ok hab => exact hnext hab
  | error => exact .error

theorem mono {S : α → β → Prop} {d : Decoded α} {e : Except Cause β} (h : Follows R d e)
    (hmono : ∀ {a b}, R a b → S a b) : Follows S d e := by
  cases h with
  | ok hab => exact .ok (hmono hab)
  | error => exact .error

/-- Where there is nothing to be found, that is the cause of the failure. -/
theorem eq_error {d : Decoded α} {cause : Cause} {o : Option β}
    (h : Follows R d (cause.orElse o)) (ho : o = none) : d = .error (.ofCause cause) := by
  subst ho
  cases h
  rfl

/-- Whatever the cause is, an outcome that follows an option matches it. -/
theorem toMatches {d : Decoded α} {cause : Cause} {o : Option β}
    (h : Follows R d (cause.orElse o)) : Matches R d o := by
  cases o with
  | none =>
    cases h
    exact .error
  | some b =>
    cases h with
    | ok hab => exact .ok hab

end Follows

/-! ## Children of one type -/

namespace Cursor

variable {r : Regions}

theorem next_of_toList_nil {c : Cursor} (h : c.toList r = []) : c.next r = none := by
  cases hnext : c.next r with
  | none => rfl
  | some found =>
    rw [toList_of_some hnext] at h
    cases h

/-- A cursor yields the first of its items, and the others after it. -/
theorem exists_next_of_toList_cons {c : Cursor} {item : Decoded Slot} {rest : List (Decoded Slot)}
    (h : c.toList r = item :: rest) : ∃ c', c.next r = some (item, c') ∧ c'.toList r = rest := by
  cases hnext : c.next r with
  | none =>
    rw [toList_of_none hnext] at h
    cases h
  | some found =>
    rw [toList_of_some hnext] at h
    cases h
    exact ⟨found.2, rfl, rfl⟩

theorem flatMap_offered_some {parent : Nat} {type : SlotType} :
    ∀ {items : List (Except Fault Block)} {held : List Slot}, r.walkSlots items = .ok held →
      (∀ child, .expression child ∈ held → ∃ record, r.expression child = .ok record) →
      items.flatMap (offered r parent (some type)) =
        (held.filter fun s => s.type == type).map .ok
  | [], held, h, _ => by
    cases pure_eq_ok.mp h
    rfl
  | item :: rest, held, h, hexists => by
    obtain ⟨block, first, others, rfl, hfirst, hothers, rfl⟩ := Regions.walkSlots_cons.mp h
    have hrest := @flatMap_offered_some parent type _ _ hothers
      fun child hmem => hexists child (List.mem_append_right _ hmem)
    have hitems : blockItems r parent block = first.map .ok := blockItems_eq_map_ok.mpr
      ⟨hfirst, fun child hmem => hexists child (List.mem_append_left _ hmem)⟩
    have htype : ∀ s ∈ first, s.type = block.type := by
      intro s hs
      obtain ⟨slot, -, hread⟩ := exists_of_mem_mapM hfirst hs
      exact Slot.type_of_read hread
    rw [List.flatMap_cons, hrest, List.filter_append, List.map_append, offered, hitems]
    congr 1
    -- A block has slots of its type only, so all of it passes or nothing does.
    show (if (type == block.type) = true then _ else _) = _
    by_cases hwanted : type = block.type
    · rw [if_pos (beq_iff_eq.mpr hwanted), List.filter_eq_self.mpr]
      exact fun s hs => beq_iff_eq.mpr ((htype s hs).trans hwanted.symm)
    · rw [if_neg (fun h => hwanted (beq_iff_eq.mp h)), List.filter_eq_nil_iff.mpr]
      · rfl
      · exact fun s hs heq => hwanted ((beq_iff_eq.mp heq).symm.trans (htype s hs))

/-- Where all child slots are readable, a cursor over the children of one type
yields those of that type. -/
theorem toList_start_some {parent : Nat} {type : SlotType} {held : List Slot}
    (h : r.childSlots parent = .ok held)
    (hexists : ∀ child, .expression child ∈ held → ∃ record, r.expression child = .ok record) :
    (start r parent (some type)).toList r = (held.filter fun s => s.type == type).map .ok := by
  obtain ⟨range, hrange, hwalk⟩ := Regions.childSlots_eq_ok.mp h
  rw [toList_start hrange, untilError_eq_map_ok]
  exact flatMap_offered_some hwalk hexists

end Cursor

/-! ## All children -/

/-- A walk without a fault covers all its slots. -/
theorem Regions.length_walkSlots {r : Regions} (b : Blocks) {held : List Slot}
    (h : r.walkSlots (b.toList r) = .ok held) : held.length = b.remaining.size := by
  by_cases hle : b.cursor ≤ b.stop
  · obtain ⟨blocks, hblocks⟩ := exists_blocks_of_walkSlots h
    have htiles := ((Blocks.toList_eq_map_ok hle).mp hblocks).tiles
    rw [hblocks, walkSlots_map_ok] at h
    have hplaces := congrArg List.length htiles.map_snd_places
    rw [List.length_map, List.length_range'] at hplaces
    rw [← (mapM_eq_ok.mp h).length_eq, hplaces]
    rfl
  · have hle : b.stop ≤ b.cursor := Nat.le_of_not_le hle
    rw [Blocks.toList_of_le hle] at h
    cases pure_eq_ok.mp h
    exact (Nat.sub_eq_zero_of_le hle).symm

/-! ## Steps of a view -/

namespace View

/-- A view shows the tree to which its expression unfolds. -/
def Shows (v : View) (tree : Tree) : Prop :=
  Unfolds v.regions v.index tree

end View

/-- An item shows a scalar that it is, or what its view shows. -/
def Item.Shows : Item → Tree → Prop
  | scalar value, tree => tree = .scalar value
  | view v, tree => v.Shows tree

/-- The tree itself if it is an expression; a scalar is of the wrong type. -/
def Tree.toExpression : Tree → Except Cause Tree
  | scalar value => .error (.typeMismatch SlotType.expression.name value.type.name)
  | node head children => .ok (node head children)

/-- An item is a view exactly if what it shows is an expression. -/
theorem Item.Shows.follows_toView {item : Item} {tree : Tree} (h : item.Shows tree) :
    Follows View.Shows item.toView tree.toExpression := by
  cases item with
  | scalar value =>
    cases h
    exact .error
  | view v =>
    obtain ⟨head, _, children, rfl, -⟩ := Unfolds.exists_node h
    exact .ok h

namespace View

/-- Where expression 0 unfolds, the root of the buffer is a view of it. -/
theorem root_eq_ok {bytes : ByteArray} {r : Regions} {tree : Tree}
    (hparse : Regions.parse bytes = .ok r) (h : Unfolds r 0 tree) :
    View.root bytes = .ok ⟨r, 0⟩ := by
  obtain ⟨_, _, _, -, hhead, -⟩ := h.exists_node
  obtain ⟨record, hrecord, -⟩ := bind_eq_ok.mp hhead
  rw [View.root, hparse]
  exact bind_pure_eq_ok.mpr ⟨record, hrecord, rfl⟩

/-- The steps over a cursor lead to the successes that it yields, and beyond them to the
error that comes after them, or out of range. -/
theorem nth_of_toList {v : View} {c : Cursor} {held : List Slot} {e? : Option DecodeError}
    (h : c.toList v.regions = held.map .ok ++ e?.toList.map .error) (passed n : Nat) :
    v.nth c passed n = (held[n]?).elim
      (.error (e?.getD (.ofCause (.indexOutOfRange (passed + n) (passed + held.length))))) .ok := by
  induction held generalizing c passed n with
  | nil =>
    cases e? with
    | none =>
      have hnext := Cursor.next_of_toList_nil h
      cases n <;> simp [nth, hnext, Nat.add_assoc]
    | some e =>
      obtain ⟨_, hnext, -⟩ := Cursor.exists_next_of_toList_cons h
      cases n <;> simp [nth, hnext]
  | cons s rest ih =>
    obtain ⟨c', hnext, hrest⟩ := Cursor.exists_next_of_toList_cons h
    cases n with
    | zero => simp [nth, hnext]
    | succ n =>
      have hlater := ih hrest (passed + 1) n
      rw [Nat.add_assoc, Nat.add_assoc, Nat.add_comm 1, Nat.add_comm 1] at hlater
      rw [nth, hnext]
      exact hlater

namespace Shows

variable {v : View} {tree : Tree}

theorem head {head : String} {children : List Tree} (h : v.Shows (.node head children)) :
    v.head = .ok head :=
  Decoded.blaming_eq_ok.mpr (unfolds_node.mp h).1

/-- The children of a view are slots that unfold to the arguments of its tree. -/
theorem exists_slots (h : v.Shows tree) :
    ∃ held, v.regions.childSlots v.index = .ok held ∧
      SlotsUnfold v.regions held tree.arguments ∧
      v.arguments.toList v.regions = held.map .ok ∧
      ∀ type, (v.typedArguments type).toList v.regions =
        (held.filter fun s => s.type == type).map .ok := by
  obtain ⟨head, held, trees, rfl, -, hheld, htrees⟩ := h.exists_node
  exact ⟨held, hheld, htrees, Cursor.toList_start_eq_map_ok.mpr ⟨hheld, htrees.exists_record⟩,
    fun type => Cursor.toList_start_some hheld htrees.exists_record⟩

/-- Items show what the slots that hold them unfold to. -/
theorem forall₂_item {held : List Slot} :
    ∀ {trees : List Tree}, SlotsUnfold v.regions held trees →
      List.Forall₂ (fun s tree => (v.item s).Shows tree) held trees := by
  induction held with
  | nil =>
    intro trees h
    cases h
    exact .nil
  | cons s held ih =>
    intro trees h
    cases h with
    | scalar hrest => exact .cons rfl (ih hrest)
    | expression htree hrest => exact .cons htree (ih hrest)

/-- **The `n`-th child of a view is the `n`-th argument of its tree.** -/
theorem follows_child (h : v.Shows tree) (n : Nat) :
    Follows Item.Shows (v.child n)
      ((Cause.indexOutOfRange n tree.arguments.length).orElse tree.arguments[n]?) := by
  obtain ⟨held, -, htrees, hall, -⟩ := h.exists_slots
  have hitems := forall₂_item htrees
  have hlength := hitems.length_eq
  have hclean : v.arguments.toList v.regions =
      held.map .ok ++ (none : Option DecodeError).toList.map .error :=
    hall.trans (List.append_nil _).symm
  rw [View.child, nth_of_toList hclean, Nat.zero_add, Nat.zero_add, hlength]
  by_cases hn : n < held.length
  · rw [List.getElem?_eq_getElem hn, List.getElem?_eq_getElem (hlength ▸ hn)]
    exact .ok ((List.forall₂_iff_get.mp hitems).2 n hn (hlength ▸ hn))
  · rw [List.getElem?_eq_none (Nat.le_of_not_lt hn),
      List.getElem?_eq_none (hlength ▸ Nat.le_of_not_lt hn)]
    exact .error

theorem arity {held : List Slot} (h : v.regions.childSlots v.index = .ok held) :
    v.arity = .ok held.length := by
  obtain ⟨range, hrange, hwalk⟩ := Regions.childSlots_eq_ok.mp h
  rw [Regions.length_walkSlots _ hwalk]
  refine Decoded.blaming_eq_ok.mpr (bind_pure_eq_ok.mpr ⟨range, ?_, rfl⟩)
  exact Decoded.lift_eq_ok.mpr hrange

/-! ### Lookups -/

/-- A lookup passes an expression unless it has the head that is looked for. -/
theorem lookupFrom_expression {index : Nat} {head key : String} {rest : List (Decoded Slot)}
    (h : (View.mk v.regions index).head = .ok head) :
    v.lookupFrom key (.ok (.expression index) :: rest) =
      if head = key then .ok ⟨v.regions, index⟩ else v.lookupFrom key rest := by
  rw [View.lookupFrom, ok_bind]
  simp only [h, ok_bind]
  rfl

/-- Among children, the first expression of a head is the first tree of it. -/
theorem follows_lookupFrom {key : String} {held : List Slot} {trees : List Tree}
    (h : SlotsUnfold v.regions held trees) :
    Follows Shows
      (v.lookupFrom key ((held.filter fun s => s.type == .expression).map .ok))
      ((Cause.keyNotFound key).orElse (Entries.find? key (trees.filterMap Tree.headed))) := by
  induction held generalizing trees with
  | nil =>
    cases h
    exact .error
  | cons s held ih =>
    cases h with
    | @scalar value _ trees hrest =>
      have htype : ((Slot.scalar value).type == .expression) = false := by cases value <;> rfl
      rw [List.filter_cons, htype, List.filterMap_cons]
      exact ih hrest
    | @expression index tree _ trees htree hrest =>
      obtain ⟨head, _, children, rfl, -⟩ := htree.exists_node
      have hentry : (View.mk v.regions index).Shows (.node head children) := htree
      rw [List.filter_cons_of_pos rfl, List.map_cons, lookupFrom_expression hentry.head]
      show Follows Shows _ ((Cause.keyNotFound key).orElse
        (if key = head then some (Tree.node head children)
          else Entries.find? key (trees.filterMap Tree.headed)))
      by_cases hkey : head = key
      · rw [if_pos hkey, if_pos hkey.symm]
        exact .ok hentry
      · rw [if_neg hkey, if_neg (Ne.symm hkey)]
        exact ih hrest

/-- **A lookup of a view is a lookup in its tree.** -/
theorem follows_lookup (h : v.Shows tree) (key : String) :
    Follows Shows (v.lookup key) ((Cause.keyNotFound key).orElse (tree.lookup key)) := by
  obtain ⟨held, -, htrees, -, htyped⟩ := h.exists_slots
  rw [View.lookup, htyped]
  exact follows_lookupFrom htrees

theorem lookup (h : v.Shows tree) (key : String) :
    Matches Shows (v.lookup key) (tree.lookup key) :=
  (h.follows_lookup key).toMatches

/-- The first child of a view, if it is to be an expression, is that of its tree. -/
theorem toView_child (h : v.Shows tree) :
    Matches Shows (v.child 0 >>= Item.toView) tree.first? := by
  have hchild := (h.follows_child 0).bind fun hitem => hitem.follows_toView
  rw [Tree.first?]
  generalize tree.arguments = trees at hchild
  generalize v.child 0 >>= Item.toView = outcome at hchild
  match trees, hchild with
  | [], .error => exact .error
  | .scalar _ :: _, .error => exact .error
  | .node _ _ :: _, .ok hview => exact .ok hview

/-! ### Columns -/

/-- Only two arguments can make a named column. -/
theorem namedColumn_of_length_ne {held : List Slot}
    (hheld : v.regions.childSlots v.index = .ok held) (hlength : held.length ≠ 2) :
    v.namedColumn = .ok none := by
  rw [View.namedColumn, arity hheld, ok_bind, if_pos hlength]
  rfl

/-- The name and the values of two slots that make a named column. -/
def namedPair (r : Regions) : Slot → Slot → Option (String × View)
  | .scalar (.symbol name), .expression index => some (name, ⟨r, index⟩)
  | _, _ => none

theorem eq_of_namedPair {r : Regions} {first second : Slot} {found : String × View}
    (h : namedPair r first second = some found) :
    ∃ name index, first = .scalar (.symbol name) ∧ second = .expression index := by
  rw [namedPair.eq_def] at h
  split at h
  · exact ⟨_, _, rfl, rfl⟩
  · cases h

theorem namedColumn_of_pair {first second : Slot}
    (hheld : v.regions.childSlots v.index = .ok [first, second])
    (hall : v.arguments.toList v.regions = [first, second].map .ok) :
    v.namedColumn = .ok (namedPair v.regions first second) := by
  obtain ⟨c, hfirst, hrest⟩ := Cursor.exists_next_of_toList_cons hall
  obtain ⟨c', hsecond, -⟩ := Cursor.exists_next_of_toList_cons hrest
  have hlength : ¬ [first, second].length ≠ 2 := not_not_intro rfl
  rw [View.namedColumn, arity hheld, ok_bind, if_neg hlength]
  simp only [hfirst, hsecond, ok_bind]
  cases first with
  | expression index => rfl
  | scalar value => cases value <;> cases second <;> rfl

/-- An entry of a table is a named column exactly if its tree is one, and gives
the values of it. -/
theorem namedColumn (h : v.Shows tree) :
    match tree.arguments with
    | [.scalar (.symbol name), .node inner values] =>
      ∃ w, v.namedColumn = .ok (some (name, w)) ∧ w.Shows (.node inner values)
    | _ => v.namedColumn = .ok none := by
  obtain ⟨held, hheld, htrees, hall, -⟩ := h.exists_slots
  split
  · next name inner values heq =>
    rw [heq] at htrees
    cases htrees with
    | expression htree _ => cases htree
    | scalar hrest =>
      cases hrest with
      | expression htree hnil =>
        cases hnil
        exact ⟨_, namedColumn_of_pair hheld hall, htree⟩
  · next hother =>
    by_cases hlength : held.length = 2
    · obtain ⟨first, second, rfl⟩ := List.length_eq_two.mp hlength
      rw [namedColumn_of_pair hheld hall]
      cases hpair : namedPair v.regions first second with
      | none => rfl
      | some found =>
        -- Then the tree has a symbol and an expression as its arguments.
        obtain ⟨name, index, rfl, rfl⟩ := eq_of_namedPair hpair
        revert hother
        generalize tree.arguments = trees at htrees
        intro hother
        cases htrees with
        | scalar hrest =>
          cases hrest with
          | expression htree hnil =>
            cases hnil
            obtain ⟨inner, _, values, rfl, -⟩ := htree.exists_node
            exact (hother name inner values rfl).elim
    · exact namedColumn_of_length_ne hheld hlength

/-- A search passes a named column unless it has the name. -/
theorem columnFrom_named {index : Nat} {key name : String} {values : View}
    {rest : List (Decoded Slot)}
    (h : (View.mk v.regions index).namedColumn = .ok (some (key, values))) :
    v.columnFrom name (.ok (.expression index) :: rest) =
      if key = name then .ok values else v.columnFrom name rest := by
  rw [View.columnFrom, ok_bind]
  simp only [h, ok_bind]
  rfl

/-- It passes any other entry unless its head is the name. -/
theorem columnFrom_headed {index : Nat} {head name : String} {rest : List (Decoded Slot)}
    (h : (View.mk v.regions index).namedColumn = .ok none)
    (hhead : (View.mk v.regions index).head = .ok head) :
    v.columnFrom name (.ok (.expression index) :: rest) =
      if head = name then .ok ⟨v.regions, index⟩ else v.columnFrom name rest := by
  rw [View.columnFrom, ok_bind]
  simp only [h, hhead, ok_bind]
  rfl

/-- Among children, the first column of a name is that of the trees. -/
theorem follows_columnFrom {name : String} {held : List Slot} {trees : List Tree}
    (h : SlotsUnfold v.regions held trees) :
    Follows Shows
      (v.columnFrom name ((held.filter fun s => s.type == .expression).map .ok))
      ((Cause.keyNotFound name).orElse (Entries.find? name (trees.filterMap Tree.cellsOf))) := by
  induction held generalizing trees with
  | nil =>
    cases h
    exact .error
  | cons s held ih =>
    cases h with
    | @scalar value _ trees hrest =>
      have htype : ((Slot.scalar value).type == .expression) = false := by cases value <;> rfl
      rw [List.filter_cons, htype, List.filterMap_cons]
      exact ih hrest
    | @expression index tree _ trees htree hrest =>
      obtain ⟨head, _, children, rfl, -⟩ := htree.exists_node
      have hentry : (View.mk v.regions index).Shows (.node head children) := htree
      have hnamed := hentry.namedColumn
      rw [List.filter_cons_of_pos rfl, List.map_cons]
      split at hnamed
      · next key inner values heq =>
        obtain ⟨w, hw, hshows⟩ := hnamed
        cases heq
        rw [columnFrom_named hw]
        show Follows Shows _ ((Cause.keyNotFound name).orElse
          (if name = key then some (Tree.node inner values) else
            Entries.find? name (trees.filterMap Tree.cellsOf)))
        by_cases hkey : key = name
        · rw [if_pos hkey, if_pos hkey.symm]
          exact .ok hshows
        · rw [if_neg hkey, if_neg (Ne.symm hkey)]
          exact ih hrest
      · next hother =>
        have hcells := @Tree.cellsOf_of_ne head children
          fun name inner values heq => hother name inner values heq
        rw [columnFrom_headed hnamed hentry.head, List.filterMap_cons, hcells]
        show Follows Shows _ ((Cause.keyNotFound name).orElse
          (if name = head then some (Tree.node head children) else
            Entries.find? name (trees.filterMap Tree.cellsOf)))
        by_cases hkey : head = name
        · rw [if_pos hkey, if_pos hkey.symm]
          exact .ok hentry
        · rw [if_neg hkey, if_neg (Ne.symm hkey)]
          exact ih hrest

/-- **The column that a view finds is the one of its tree.** -/
theorem follows_column (h : v.Shows tree) (name : String) :
    Follows Shows (v.column name) ((Cause.keyNotFound name).orElse (tree.column? name)) := by
  obtain ⟨held, -, htrees, -, htyped⟩ := h.exists_slots
  rw [View.column, htyped]
  exact follows_columnFrom htrees

theorem column (h : v.Shows tree) (name : String) :
    Matches Shows (v.column name) (tree.column? name) :=
  (h.follows_column name).toMatches

/-! ### Scalars -/

/-- The slots of a scalar type are the scalars of it. -/
theorem filter_eq_scalars {type : SlotType} (htype : type ≠ .expression) {held : List Slot}
    {trees : List Tree} (h : SlotsUnfold v.regions held trees) :
    (held.filter fun s => s.type == type) =
      (trees.filterMap (Tree.scalar? type)).map .scalar := by
  induction held generalizing trees with
  | nil =>
    cases h
    rfl
  | cons s held ih =>
    cases h with
    | @scalar value _ trees hrest =>
      have hslot : ((Slot.scalar value).type == type) = decide (value.type = type) := rfl
      rw [List.filter_cons, hslot, List.filterMap_cons, Tree.scalar?]
      by_cases hvalue : value.type = type
      · rw [if_pos (decide_eq_true hvalue), if_pos hvalue, ih hrest]
        rfl
      · rw [if_neg (mt of_decide_eq_true hvalue), if_neg hvalue, ih hrest]
    | @expression index tree _ trees htree hrest =>
      obtain ⟨head, _, children, rfl, -⟩ := htree.exists_node
      have hslot : ((Slot.expression index).type == type) = false :=
        beq_eq_false_iff_ne.mpr (Ne.symm htype)
      rw [List.filter_cons, hslot, List.filterMap_cons]
      exact ih hrest

/-- A view has the scalars of one type that its tree has. -/
theorem typedArguments (h : v.Shows tree) {type : SlotType} (htype : type ≠ .expression) :
    (v.typedArguments type).toList v.regions =
      (tree.scalarsOf type).map fun value => .ok (.scalar value) := by
  obtain ⟨held, -, htrees, -, htyped⟩ := h.exists_slots
  rw [htyped, filter_eq_scalars htype htrees, List.map_map]
  rfl

end Shows

end View

end FlatTree
