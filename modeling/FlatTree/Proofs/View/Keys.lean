import FlatTree.Proofs.Build.BreadthFirst
import FlatTree.Proofs.View.Lookup
import FlatTree.Proofs.View.Materialize

/-!
# Keys of a view and keys of its value

What the key of an entry is gets decided twice. When a container is decoded, it is
told from the values of the entry; when a view looks for a key, from the slots of
the entry and its head. Where the container can be decoded, both come to the same:
a lookup finds the entry that brought the value under the key.

- `View.NamesColumn`, `View.HeadsColumn`: the two layouts of a column, as a view
  sees them. `View.KeyedAs.unique` says that an entry has one key.
- `View.Shows.exists_holdsColumn`: a column of a tree is one of the two, and holds
  its value.
- `View.FindsColumn`: a search for a name ends at the first column of it, which
  holds some value; `View.exists_first_column` says so of the columns of a table.
- `View.lookups_of_materialize`: lookups in a view are lookups in its value.
-/

namespace FlatTree

/-! ## Values of what is shown -/

/-- A view is materialized to the value of its tree. -/
theorem View.materialize_eq_ok_iff_shows {v : View} {value : Value} :
    v.materialize = .ok value ↔
      ∃ tree, v.Shows tree ∧ tree.levels ≤ defaultMaxDepth + 1 ∧ tree.promote = some value := by
  rw [materialize_eq_ok, (finishes v.regions defaultMaxDepth _).expression,
    (Eager.decodesUnfolding v.regions defaultMaxDepth _).expression]
  rfl

theorem Item.Shows.toValue {item : Item} {tree : Tree} {value : Value} (h : item.Shows tree)
    (hlevels : tree.levels ≤ defaultMaxDepth + 1) (hvalue : tree.promote = some value) :
    item.toValue = .ok value := by
  cases item with
  | scalar found =>
    cases h
    cases hvalue
    rfl
  | view v => exact View.materialize_eq_ok_iff_shows.mpr ⟨tree, h, hlevels, hvalue⟩

namespace View

/-- The values of the arguments of a view, each by itself. -/
def values (v : View) : Decoded (List Value) :=
  (v.arguments.toList v.regions).mapM fun argument => do (v.item (← argument)).toValue

theorem forall₂_toValue {v : View} :
    ∀ {held : List Slot} {trees : List Tree} {items : List Value},
      List.Forall₂ (fun s tree => (v.item s).Shows tree) held trees →
      List.Forall₂ (fun tree value => tree.promote = some value) trees items →
      Tree.levelsAll trees ≤ defaultMaxDepth + 1 →
        List.Forall₂ (fun s value => (v.item s).toValue = .ok value) held items
  | _, _, _, .nil, .nil, _ => .nil
  | _, _, _, .cons hitem hrest, .cons hvalue hothers, hlevels => by
    obtain ⟨hfirst, hlater⟩ := Nat.max_le.mp hlevels
    exact .cons (hitem.toValue hfirst hvalue) (forall₂_toValue hrest hothers hlater)

/-- The arguments of a view have the values of those of its tree. -/
theorem Shows.values {v : View} {head : String} {trees : List Tree} {items : List Value}
    (h : v.Shows (.node head trees)) (hlevels : (Tree.node head trees).levels ≤ defaultMaxDepth + 1)
    (hitems : Tree.promoteAll trees = some items) : v.values = .ok items := by
  obtain ⟨held, -, htrees, hall, -⟩ := h.exists_slots
  rw [View.values, hall, List.mapM_map, mapM_eq_ok]
  exact forall₂_toValue (forall₂_item htrees) (Tree.promoteAll_eq_some.mp hitems)
    (Nat.le_of_succ_le hlevels)

/-! ## The key of an entry -/

/-- An entry is a named column: a symbol, followed by an expression and nothing else. -/
def NamesColumn (entry : View) (name : String) (cells : View) : Prop :=
  cells.regions = entry.regions ∧ entry.arguments.toList entry.regions =
    [.ok (.scalar (.symbol name)), .ok (.expression cells.index)]

/-- An entry is a column written cell by cell, and headed by its name. -/
def HeadsColumn (entry : View) (name : String) : Prop :=
  entry.head = .ok name ∧ ¬ ∃ key cells, entry.NamesColumn key cells

/-- An entry of a table has a key, by either layout. -/
def KeyedAs (entry : View) (name : String) : Prop :=
  (∃ cells, entry.NamesColumn name cells) ∨ entry.HeadsColumn name

/-- An entry has one key. -/
theorem KeyedAs.unique {entry : View} {name other : String} (h : entry.KeyedAs name)
    (hother : entry.KeyedAs other) : name = other := by
  rcases h with ⟨cells, hnames⟩ | ⟨hhead, hnone⟩
  · rcases hother with ⟨cells', -, hlist⟩ | ⟨-, hnone⟩
    · obtain ⟨hsymbol, -⟩ := List.cons.inj (hnames.2.symm.trans hlist)
      cases hsymbol
      rfl
    · exact absurd ⟨name, cells, hnames⟩ hnone
  · rcases hother with ⟨cells', hnames⟩ | ⟨hhead', -⟩
    · exact absurd ⟨other, cells', hnames⟩ hnone
    · rw [hhead] at hhead'
      cases hhead'
      rfl

/-- The value of a named column is that of its second argument; any other column has
the list of the values of its cells. -/
def HoldsColumn (entry : View) (name : String) (cells : View) (value : Value) : Prop :=
  (entry.NamesColumn name cells ∧ cells.materialize = .ok value) ∨
    (entry.HeadsColumn name ∧ cells = entry ∧
      ∃ items, cells.values = .ok items ∧ value = .list items)

/-- A search for a name ends at the first column of a table that has it. This one holds
the value, and what is found has its cells as arguments. -/
def FindsColumn (v : View) (name : String) (value : Value) : Prop :=
  ∃ before index after cells,
    v.arguments.toList v.regions = before ++ .ok (.expression index) :: after ∧
    (∀ other, .ok (.expression other) ∈ before → ¬ (View.mk v.regions other).KeyedAs name) ∧
    (View.mk v.regions index).HoldsColumn name cells value ∧ v.column name = .ok cells

theorem HoldsColumn.keyedAs {entry cells : View} {name : String} {value : Value}
    (h : entry.HoldsColumn name cells value) : entry.KeyedAs name := by
  rcases h with ⟨hnames, -⟩ | ⟨hheads, -⟩
  · exact .inl ⟨cells, hnames⟩
  · exact .inr hheads

/-- What a search takes for a named column is one. -/
theorem Shows.namedColumn_eq_some {entry cells : View} {tree : Tree} {name : String}
    (h : entry.Shows tree) :
    entry.namedColumn = .ok (some (name, cells)) ↔ entry.NamesColumn name cells := by
  obtain ⟨held, hheld, -, hall, -⟩ := h.exists_slots
  constructor
  · intro hnamed
    by_cases hlength : held.length = 2
    · obtain ⟨first, second, rfl⟩ := List.length_eq_two.mp hlength
      rw [namedColumn_of_pair hheld hall, Except.ok.injEq] at hnamed
      obtain ⟨key, index, rfl, rfl⟩ := eq_of_namedPair hnamed
      cases hnamed
      exact ⟨rfl, hall⟩
    · rw [namedColumn_of_length_ne hheld hlength] at hnamed
      cases hnamed
  · rintro ⟨hregions, hlist⟩
    have hpair : held = [.scalar (.symbol name), .expression cells.index] :=
      map_ok_inj.mp (hall.symm.trans hlist)
    obtain ⟨regions, index⟩ := cells
    cases hregions
    cases hpair
    exact namedColumn_of_pair hheld hall

variable {v : View}

/-- A column of a tree is one for a view of it too, and a search takes it for one. -/
theorem Shows.exists_holdsColumn {index : Nat} {tree : Tree} {name : String} {value : Value}
    (h : (View.mk v.regions index).Shows tree) (hlevels : tree.levels ≤ defaultMaxDepth + 1)
    (hcolumn : tree.IsColumn (name, value)) :
    ∃ cells, (View.mk v.regions index).HoldsColumn name cells value ∧
      ∀ (key : String) (rest : List (Decoded Slot)),
        v.columnFrom key (.ok (.expression index) :: rest) =
          if name = key then .ok cells else v.columnFrom key rest := by
  obtain ⟨head, arguments, items, rfl, hitems, heq⟩ := hcolumn
  have hnamed := h.namedColumn
  split at hnamed
  · next key inner children harguments =>
    obtain ⟨cells, hcells, hshows⟩ := hnamed
    cases harguments
    obtain ⟨_, _, -, hrest, rfl⟩ := Tree.promoteAll_cons.mp hitems
    obtain ⟨found, _, hfound, hnil, rfl⟩ := Tree.promoteAll_cons.mp hrest
    cases hnil
    cases heq
    have hsmall : (Tree.node inner children).levels ≤ defaultMaxDepth + 1 := by
      refine Nat.le_trans (Nat.le_of_lt (Tree.levels_lt_of_mem_arguments ?_)) hlevels
      exact List.mem_cons_of_mem _ List.mem_cons_self
    have hvalue := materialize_eq_ok_iff_shows.mpr ⟨_, hshows, hsmall, hfound⟩
    exact ⟨cells, .inl ⟨h.namedColumn_eq_some.mp hcells, hvalue⟩,
      fun _ _ => columnFrom_named hcells⟩
  · next hother =>
    rw [Tree.column.eq_def] at heq
    split at heq
    · exact (hother _ _ _ rfl).elim
    · cases heq
      have hnone : ¬ ∃ key cells, (View.mk v.regions index).NamesColumn key cells := by
        rintro ⟨key, cells, hnames⟩
        rw [h.namedColumn_eq_some.mpr hnames] at hnamed
        cases hnamed
      exact ⟨_, .inr ⟨⟨h.head, hnone⟩, rfl, items, h.values hlevels hitems, rfl⟩,
        fun _ _ => columnFrom_headed hnamed h.head⟩

/-- Among the columns of a table, a search for a name that one of them has ends at the
first one. -/
theorem exists_first_column {name : String} {value : Value} {held : List Slot} :
    ∀ {trees : List Tree} {columns : List (String × Value)},
      SlotsUnfold v.regions held trees → Tree.levelsAll trees ≤ defaultMaxDepth + 1 →
      List.Forall₂ Tree.IsColumn trees columns → Entries.find? name columns = some value →
        ∃ before index after cells, held = before ++ .expression index :: after ∧
          (∀ other, .expression other ∈ before → ¬ (View.mk v.regions other).KeyedAs name) ∧
          (View.mk v.regions index).HoldsColumn name cells value ∧
          v.columnFrom name ((held.filter fun s => s.type == .expression).map .ok) =
            .ok cells := by
  induction held with
  | nil =>
    intro trees columns htrees _ hcolumns hfind
    cases htrees
    cases hcolumns
    cases hfind
  | cons s held ih =>
    intro trees columns htrees hlevels hcolumns hfind
    cases hcolumns with
    | nil => cases htrees
    | @cons tree entry _ _ hcolumn hrest =>
      obtain ⟨key, found⟩ := entry
      cases htrees with
      | scalar => exact absurd hcolumn (Tree.not_isColumn_scalar _ _)
      | @expression index _ _ _ htree htrees =>
        obtain ⟨hfirst, hlater⟩ := Nat.max_le.mp hlevels
        have hentry : (View.mk v.regions index).Shows tree := htree
        obtain ⟨cells, hholds, hsearch⟩ := hentry.exists_holdsColumn hfirst hcolumn
        rw [List.filter_cons_of_pos rfl, List.map_cons, hsearch]
        rw [Entries.find?] at hfind
        by_cases hkey : name = key
        · rw [if_pos hkey] at hfind
          cases hkey
          cases hfind
          exact ⟨[], index, held, cells, rfl, fun _ hmem => absurd hmem List.not_mem_nil, hholds,
            if_pos rfl⟩
        · rw [if_neg hkey] at hfind
          obtain ⟨before, found', after, cells', rfl, hbefore, hholds', hfound⟩ :=
            ih htrees hlater hrest hfind
          refine ⟨.expression index :: before, found', after, cells', rfl, fun other hmem => ?_,
            hholds', ?_⟩
          · rcases List.mem_cons.mp hmem with heq | hmem
            · cases heq
              exact fun hother => hkey (hother.unique hholds.keyedAs)
            · exact hbefore other hmem
          · rw [if_neg (Ne.symm hkey), hfound]

/-- Under a key of an object stands the value of the field. -/
theorem Shows.field_of_object {tree : Tree} {entries : Entries Value} {key : String}
    {found : Value} (h : v.Shows tree) (hlevels : tree.levels ≤ defaultMaxDepth + 1)
    (hobject : tree.promote = some (.object entries))
    (hfound : Entries.find? key entries = some found) :
    (v.field key >>= Item.toValue) = .ok found := by
  have hrel := Tree.rel_lookup_object hobject key
  rw [hfound] at hrel
  obtain ⟨part, hpart, child, harguments, hchild⟩ := exists_of_rel_some_right hrel
  obtain ⟨entry, hlookup, hentry⟩ := (hpart ▸ h.lookup key).exists_of_some
  have hitem := hentry.follows_child 0
  rw [harguments] at hitem
  obtain ⟨item, hitem, hshows⟩ := hitem.toMatches.exists_of_some
  have hlt := Tree.levels_lt_of_mem_arguments (Tree.mem_arguments_of_lookup hpart)
  have hlt' := @Tree.levels_lt_of_mem_arguments child part (harguments ▸ List.mem_singleton_self _)
  rw [View.field, hlookup, ok_bind, hitem, ok_bind]
  exact hshows.toValue (by omega) hchild

/-- Under a name of a table stands the value of the first column of the name, and a
search finds its cells. -/
theorem Shows.column_of_table {tree : Tree} {columns : Entries Value} {name : String}
    {found : Value} (h : v.Shows tree) (hlevels : tree.levels ≤ defaultMaxDepth + 1)
    (htable : tree.promote = some (.table columns))
    (hfound : Entries.find? name columns = some found) : v.FindsColumn name found := by
  obtain ⟨trees, members, rfl, hmembers, rfl⟩ := Tree.exists_of_promote_table htable
  rw [Entries.find?_ofFirst] at hfound
  obtain ⟨held, -, htrees, hall, htyped⟩ := h.exists_slots
  obtain ⟨before, index, after, cells, rfl, hbefore, hholds, hcolumn⟩ :=
    exists_first_column htrees (Nat.le_of_succ_le hlevels) hmembers hfound
  refine ⟨before.map .ok, index, after.map .ok, cells, ?_, fun other hmem => ?_, hholds, ?_⟩
  · rw [hall, List.map_append, List.map_cons]
  · obtain ⟨s, hs, heq⟩ := List.mem_map.mp hmem
    cases heq
    exact hbefore other hs
  · rw [View.column, htyped, hcolumn]

/-- **Lookups in a view are lookups in its value.** Where a view is materialized to an
object, the value under a key is that of the field; and to a table, the value under a
name is that of the first column of the name, which is what a search for it finds.
Where there is nothing under a key, a lookup says so. -/
theorem lookups_of_materialize {v : View} {value : Value} (h : v.materialize = .ok value) :
    (∀ entries, value = .object entries → ∀ key,
      (∀ found, Entries.find? key entries = some found →
        (v.field key >>= Item.toValue) = .ok found) ∧
      (Entries.find? key entries = none →
        v.lookup key = .error (.ofCause (.keyNotFound key)))) ∧
    ∀ columns, value = .table columns → ∀ name,
      (∀ found, Entries.find? name columns = some found → v.FindsColumn name found) ∧
      (Entries.find? name columns = none →
        v.column name = .error (.ofCause (.keyNotFound name))) := by
  obtain ⟨tree, hshows, hlevels, hpromote⟩ := materialize_eq_ok_iff_shows.mp h
  constructor
  · rintro entries rfl key
    exact ⟨fun found => hshows.field_of_object hlevels hpromote,
      fun hnone => (hshows.follows_lookup key).eq_error
        (eq_none_of_rel_none (hnone ▸ Tree.rel_lookup_object hpromote key))⟩
  · rintro columns rfl name
    exact ⟨fun found => hshows.column_of_table hlevels hpromote,
      fun hnone => (hshows.follows_column name).eq_error
        (eq_none_of_rel_none (hnone ▸ Tree.rel_column? hpromote name))⟩

/-- An object with a key twice, and with a key that names a container. -/
def sampleObject : Tree :=
  .object [("k", .scalar (.long 1)), ("List", .list []), ("k", .scalar (.long 2))]

/-- A table of both layouts, in which the name of a named column is also the head of a
column of two cells, the first of which is a symbol. -/
def sampleTable : Tree :=
  .node "Table" [
    .node "Column" [.scalar (.symbol "a"), .list [.scalar (.long 1), .scalar (.long 2)]],
    .node "a" [.scalar (.symbol "x"), .scalar (.long 5)],
    .node "b" [.scalar (.symbol "x"), .scalar (.long 6)]]

/-- The first of two fields is found, and so is the first of two columns. -/
theorem lookups_of_materialize_sample :
    (∃ v : View, v.materialize = .ok (.object [("List", .list []), ("k", .scalar (.long 1))]) ∧
      (v.field "k" >>= Item.toValue) = .ok (.scalar (.long 1)) ∧
      v.lookup "Table" = .error (.ofCause (.keyNotFound "Table"))) ∧
    ∃ v : View, v.materialize = .ok (.table [
        ("a", .list [.scalar (.long 1), .scalar (.long 2)]),
        ("b", .list [.scalar (.symbol "x"), .scalar (.long 6)])]) ∧
      v.FindsColumn "a" (.list [.scalar (.long 1), .scalar (.long 2)]) ∧
      v.column "Column" = .error (.ofCause (.keyNotFound "Column")) := by
  have hvalid : RunPolicy.Valid ⟨some 2, true⟩ := by
    intro minimum h
    cases h
    exact Nat.le_refl 2
  constructor
  · have hshows : (View.mk (sampleObject.layOut ⟨some 2, true⟩).regions 0).Shows sampleObject := by
      refine Tree.unfolds_layOut hvalid ?_ (by decide) (by decide +kernel)
      exact ⟨by decide, ⟨by decide, trivial, trivial⟩, ⟨by decide, ⟨by decide, trivial⟩, trivial⟩,
        ⟨by decide, trivial, trivial⟩, trivial⟩
    have hvalue := materialize_eq_ok_iff_shows.mpr ⟨sampleObject, hshows, by decide, rfl⟩
    obtain ⟨hobject, -⟩ := lookups_of_materialize hvalue
    exact ⟨_, hvalue, (hobject _ rfl "k").1 _ rfl, (hobject _ rfl "Table").2 rfl⟩
  · have hshows : (View.mk (sampleTable.layOut ⟨some 2, true⟩).regions 0).Shows sampleTable := by
      refine Tree.unfolds_layOut hvalid ?_ (by decide) (by decide +kernel)
      have hsymbol : Tree.Storable (.scalar (.symbol "x")) := show Heap.Storable "x" by decide
      exact ⟨by decide,
        ⟨by decide, show Heap.Storable "a" by decide, ⟨by decide, trivial, trivial, trivial⟩,
          trivial⟩,
        ⟨by decide, hsymbol, trivial, trivial⟩, ⟨by decide, hsymbol, trivial, trivial⟩, trivial⟩
    have hvalue := materialize_eq_ok_iff_shows.mpr ⟨sampleTable, hshows, by decide, rfl⟩
    obtain ⟨-, htable⟩ := lookups_of_materialize hvalue
    exact ⟨_, hvalue, (htable _ rfl "a").1 _ rfl, (htable _ rfl "Column").2 rfl⟩

end View

end FlatTree
