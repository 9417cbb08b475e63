import FlatTree.Package.Column
import FlatTree.Proofs.Build.RoundTrip
import FlatTree.Proofs.View.Lookup

/-!
# Sums through a view and in the decoded value

Both sums of a column add the doubles among its cells and then the longs. Where
the cells are found in a raw tree, by heads alone, a view of it finds them too.
The decoded value has them as well, if two containers on the way are lists, at
whose heads a view never looks: the resources and the values of a named column.

- `Package.addendsView`, `Package.addendsValue`: what the sums add, in order.
- `Package.addendsTree`: the same in a raw tree.
- `Package.Listed`: the containers that only a decoded value checks are lists.
- `Package.sumView_eq_of_sumValue`: where the value has a sum, a view has it.
- `Package.sumValue_eq_iff_listed`: when the converse holds.
-/

namespace FlatTree

namespace Aggregate

/-- The aggregate of the numbers among scalars, added in order. -/
def ofScalars (scalars : List Scalar) : Aggregate :=
  empty.addAll (scalars.filterMap Scalar.toFloat?)

theorem ofScalars_append (xs ys : List Scalar) :
    ofScalars (xs ++ ys) =
      (empty.addAll (xs.filterMap Scalar.toFloat?)).addAll (ys.filterMap Scalar.toFloat?) := by
  rw [ofScalars, List.filterMap_append]
  exact List.foldl_append

end Aggregate

namespace Package

/-! ## What is added -/

/-- The scalar in a slot. -/
def scalarIn? : Slot → Option Scalar
  | .scalar value => some value
  | .expression _ => none

/-- The scalars among drained arguments. -/
def scalars (items : List (Decoded Slot)) : Decoded (List Scalar) := do
  let slots ← items.mapM id
  return slots.filterMap scalarIn?

/-- The cells of a column of the first resource. -/
def cellsView (root : View) (column : String) : Decoded View := do
  let table ← tableView root
  table.column column

/-- What the sum through a view adds, in order. -/
def addendsView (root : View) (column : String) : Decoded (List Scalar) := do
  let cells ← cellsView root column
  let doubles ← scalars ((cells.typedArguments .double).toList cells.regions)
  let longs ← scalars ((cells.typedArguments .long).toList cells.regions)
  return doubles ++ longs

/-- The cells of a column of the first resource. -/
def cellsValue (root : Value) (column : String) : Decoded (List Value) := do
  let table ← tableValue root
  items (← get table column)

/-- What the sum in a decoded value adds, in order. -/
def addendsValue (root : Value) (column : String) : Decoded (List Scalar) := do
  let cells ← cellsValue root column
  return cells.filterMap (Value.scalarOf? .double) ++ cells.filterMap (Value.scalarOf? .long)

theorem numbers_eq (items : List (Decoded Slot)) :
    numbers items = do return (← scalars items).filterMap Scalar.toFloat? := by
  have hslot : (fun slot : Slot => (scalarIn? slot).bind Scalar.toFloat?) =
      fun | .scalar value => value.toFloat? | .expression _ => none := by
    funext slot
    cases slot <;> rfl
  simp only [scalars, bind_assoc, pure_bind, List.filterMap_filterMap, hslot]
  rfl

/-- **The sum through a view is the sum of what it adds.** -/
theorem sumView_eq (root : View) (column : String) :
    sumView root column = do return Aggregate.ofScalars (← addendsView root column) := by
  simp only [sumView, addendsView, cellsView, numbers_eq, bind_assoc, pure_bind,
    Aggregate.ofScalars_append]

theorem double?_eq : double? = fun value => (value.scalarOf? .double).bind Scalar.toFloat? := by
  funext value
  cases value with
  | scalar found => cases found <;> rfl
  | _ => rfl

theorem long?_eq : long? = fun value => (value.scalarOf? .long).bind Scalar.toFloat? := by
  funext value
  cases value with
  | scalar found => cases found <;> rfl
  | _ => rfl

/-- **The sum in a decoded value is the sum of what it adds.** -/
theorem sumValue_eq (root : Value) (column : String) :
    sumValue root column = do return Aggregate.ofScalars (← addendsValue root column) := by
  simp only [sumValue, addendsValue, cellsValue, double?_eq, long?_eq, bind_assoc, pure_bind,
    Aggregate.ofScalars_append, List.filterMap_filterMap]

/-! ## In a raw tree -/

/-- The table of the first resource, found by heads alone. -/
def tableTree (root : Tree) : Option Tree := do
  let resources ← root.lookup "resources"
  let list ← resources.first?
  let resource ← list.lookup "Object"
  let path ← resource.lookup "path"
  path.lookup "Table"

/-- The cells of a column of the first resource. -/
def cellsTree (root : Tree) (column : String) : Option Tree := do
  let table ← tableTree root
  table.column? column

/-- The doubles among the cells, and then the longs. -/
def addendsTree (root : Tree) (column : String) : Option (List Scalar) :=
  (cellsTree root column).map fun cells => cells.scalarsOf .double ++ cells.scalarsOf .long

variable {root : View} {tree : Tree} {column : String}

theorem tableView_matches (h : root.Shows tree) :
    Matches View.Shows (tableView root) (tableTree tree) := by
  refine (h.lookup "resources").bind fun hresources => ?_
  rw [← bind_assoc]
  refine hresources.toView_child.bind fun hlist => ?_
  refine (hlist.lookup "Object").bind fun hresource => ?_
  exact (hresource.lookup "path").bind fun hpath => hpath.lookup "Table"

/-- The scalars of one type that a view of a tree yields are those of the tree. -/
theorem scalars_typedArguments {v : View} (h : v.Shows tree) {type : SlotType}
    (htype : type ≠ .expression) :
    scalars ((v.typedArguments type).toList v.regions) = .ok (tree.scalarsOf type) := by
  have hread : ∀ found : List Scalar,
      (found.map fun value => Except.ok (Slot.scalar value)).mapM id =
        (Except.ok (found.map Slot.scalar) : Decoded (List Slot)) := by
    intro found
    rw [mapM_eq_ok, List.forall₂_map_left_iff, List.forall₂_map_right_iff, List.forall₂_same]
    exact fun _ _ => rfl
  rw [h.typedArguments htype, scalars, hread, ok_bind, List.filterMap_map]
  show Except.ok ((tree.scalarsOf type).filterMap some) = _
  rw [List.filterMap_some]

/-- **What a view of a tree adds is what the tree has.** -/
theorem addendsView_matches (h : root.Shows tree) :
    Matches Eq (addendsView root column) (addendsTree tree column) := by
  have hcells : Matches View.Shows (cellsView root column) (cellsTree tree column) :=
    (tableView_matches h).bind fun htable => htable.column column
  rw [addendsTree, Option.map_eq_bind]
  refine hcells.bind fun hcells => ?_
  have hdoubles := scalars_typedArguments hcells (show SlotType.double ≠ .expression by decide)
  have hlongs := scalars_typedArguments hcells (show SlotType.long ≠ .expression by decide)
  rw [hdoubles, hlongs]
  exact .ok rfl

/-! ## In the value of the tree -/

/-- The containers of the resources and of the cells are lists. The sum in a
decoded value needs them to be; one through a view takes any container there. -/
structure Listed (root : Value) (column : String) : Prop where
  resources : ∃ found, root.get? "resources" = some (.list found)
  cells : ∀ table, tableValue root = .ok table → ∃ found, table.get? column = some (.list found)

variable {entries : List (String × Value)}

theorem get_eq (value : Value) (key : String) :
    get value key = (value.get? key).elim (.error (.ofCause (.keyNotFound key))) .ok := by
  rw [get]
  cases value.get? key <;> rfl

theorem get_eq_ok {value found : Value} {key : String} :
    get value key = .ok found ↔ value.get? key = some found := by
  rw [get_eq]
  cases value.get? key <;> simp

theorem items_eq_ok {value : Value} {found : List Value} :
    items value = .ok found ↔ value = .list found := by
  cases value <;> simp [items, Value.items?]

/-- What is no list has no items. -/
theorem items_eq_error {value : Value} (h : ∀ found, value ≠ .list found) :
    items value = .error (.ofCause (.typeMismatch "List" value.kind)) := by
  cases value with
  | list found => exact (h found rfl).elim
  | _ => rfl

/-- A table. -/
def isTable : Value → Bool
  | .table _ => true
  | _ => false

theorem isObject_iff (value : Value) : isObject value ↔ value.shape? = some .object := by
  cases value <;> simp [isObject, Value.shape?]

theorem isTable_iff (value : Value) : isTable value ↔ value.shape? = some .table := by
  cases value <;> simp [isTable, Value.shape?]

/-- A tree is the table that a value is. -/
def IsTableOf (value : Value) (table : Tree) : Prop :=
  ∃ columns, value = .table columns ∧ table.promote = some (.table columns)

/-- The table of a resource. -/
def tableOf (resource : Value) : Decoded Value := do
  match ← get resource "path" with
  | .table columns => return .table columns
  | _ => .error (.ofCause (.keyNotFound "Table"))

/-- In a resource, both find the same table. -/
theorem tableOf_matches {resource : Tree} {members : List (String × Value)}
    (h : resource.promote = some (.object members)) :
    Matches IsTableOf (tableOf (.object members))
      ((resource.lookup "path").bind fun path => path.lookup "Table") := by
  have hentry := Tree.rel_lookup_object h "path"
  have hget : get (.object members) "path" =
      (Entries.find? "path" members).elim (.error (.ofCause (.keyNotFound "path"))) .ok :=
    get_eq _ _
  rw [tableOf, hget]
  generalize resource.lookup "path" = entry? at hentry
  generalize Entries.find? "path" members = found? at hentry
  cases hentry with
  | none => exact .error
  | @some entry found hholds =>
    have htable := Tree.rel_lookup_shape hholds.promoteAll_arguments
      (show Shape.table.head? = some "Table" from rfl) isTable_iff
    rw [Option.bind_some, Option.elim_some, ok_bind]
    generalize entry.lookup "Table" = table? at htable
    cases found with
    | table columns =>
      cases htable with
      | some hpromote => exact .ok ⟨columns, rfl, hpromote⟩
    | _ =>
      cases htable with
      | none => exact .error

/-- **Below a list of resources, both find the same table.** -/
theorem tableValue_matches (h : tree.promote = some (.object entries)) {resources : List Value}
    (hresources : Entries.find? "resources" entries = some (.list resources)) :
    Matches IsTableOf (tableValue (.object entries)) (tableTree tree) := by
  have htable : tableValue (.object entries) =
      (resources.find? isObject).elim (.error (.ofCause (.keyNotFound "Object"))) tableOf := by
    rw [tableValue, get_eq_ok.mpr (show Value.get? _ (.object entries) = _ from hresources),
      ok_bind, items_eq_ok.mpr rfl, ok_bind]
    cases resources.find? isObject <;> rfl
  have hrel := Tree.rel_lookup_object h "resources"
  rw [hresources] at hrel
  obtain ⟨entry, hentry, list, hlist, hvalue⟩ := exists_of_rel_some_right hrel
  have hfirst : entry.first? = some list := by
    obtain ⟨trees, rfl, -⟩ := Tree.exists_of_promote_list hvalue
    rw [Tree.first?, hlist]
  rw [htable, tableTree, hentry, Option.bind_eq_bind, Option.bind_some, hfirst, Option.bind_some]
  have hresource := Tree.rel_lookup_shape (Tree.promoteAll_arguments_of_list hvalue)
    (show Shape.object.head? = some "Object" from rfl) isObject_iff
  generalize list.lookup "Object" = resource? at hresource
  cases hfound : resources.find? isObject with
  | none =>
    rw [hfound] at hresource
    cases hresource with
    | none => exact .error
  | some found =>
    have hobject := List.find?_some hfound
    rw [hfound] at hresource
    obtain ⟨resource, rfl, hpromote⟩ := exists_of_rel_some_right hresource
    cases found with
    | object members => exact tableOf_matches hpromote
    | _ => cases hobject

/-- A column that is a list has its cells in the tree. -/
theorem IsTableOf.exists_column {value : Value} {table : Tree} (h : IsTableOf value table)
    {found : List Value} (hfound : value.get? column = some (.list found)) :
    ∃ cells, table.column? column = some cells ∧
      ∀ type, cells.scalarsOf type = found.filterMap (Value.scalarOf? type) := by
  obtain ⟨columns, rfl, hpromote⟩ := h
  have hrel := Tree.rel_column? hpromote column
  rw [show Entries.find? column columns = some (.list found) from hfound] at hrel
  obtain ⟨cells, hcells, hholds⟩ := exists_of_rel_some_right hrel
  exact ⟨cells, hcells, fun type => Tree.scalarsOf_eq_filterMap hholds.promoteAll_arguments⟩

/-- The resources are a list where a table is found below them. -/
theorem exists_list_of_tableValue {root table : Value} (h : tableValue root = .ok table) :
    ∃ found, root.get? "resources" = some (.list found) := by
  rw [tableValue, bind_eq_ok] at h
  obtain ⟨value, hvalue, h⟩ := h
  obtain ⟨found, hfound, -⟩ := bind_eq_ok.mp h
  cases items_eq_ok.mp hfound
  exact ⟨found, get_eq_ok.mp hvalue⟩

/-- **The sum in a value adds what the tree has, if its containers are lists.** -/
theorem addendsValue_eq_ok (h : tree.promote = some (.object entries)) {addends : List Scalar} :
    addendsValue (.object entries) column = .ok addends ↔
      Listed (.object entries) column ∧ addendsTree tree column = some addends := by
  constructor
  · intro hadds
    obtain ⟨found, hcells, rfl⟩ := bind_pure_eq_ok.mp hadds
    obtain ⟨table, htable, hcells⟩ := bind_eq_ok.mp hcells
    obtain ⟨value, hvalue, hitems⟩ := bind_eq_ok.mp hcells
    cases items_eq_ok.mp hitems
    rw [get_eq_ok] at hvalue
    have hlisted : Listed (.object entries) column := by
      refine ⟨exists_list_of_tableValue htable, fun other hother => ⟨found, ?_⟩⟩
      rw [htable] at hother
      cases hother
      exact hvalue
    obtain ⟨resources, hresources⟩ := hlisted.resources
    have hmatches := tableValue_matches h hresources
    rw [htable] at hmatches
    obtain ⟨tableTree, htree, hof⟩ := hmatches.exists_of_ok
    obtain ⟨cells, hcolumn, hscalars⟩ := hof.exists_column hvalue
    refine ⟨hlisted, ?_⟩
    rw [addendsTree, cellsTree, htree, Option.bind_eq_bind, Option.bind_some, hcolumn,
      Option.map_some, hscalars, hscalars]
  · rintro ⟨hlisted, hadds⟩
    obtain ⟨cells, hcells, rfl⟩ := Option.map_eq_some_iff.mp hadds
    obtain ⟨tableTree, htree, hcells⟩ := Option.bind_eq_some_iff.mp hcells
    obtain ⟨resources, hresources⟩ := hlisted.resources
    have hmatches := tableValue_matches h hresources
    rw [htree] at hmatches
    obtain ⟨table, htable, hof⟩ := hmatches.exists_of_some
    obtain ⟨found, hfound⟩ := hlisted.cells table htable
    obtain ⟨cells', hcolumn, hscalars⟩ := hof.exists_column hfound
    rw [hcells, Option.some.injEq] at hcolumn
    rw [addendsValue, cellsValue, htable, ok_bind, get_eq_ok.mpr hfound, ok_bind,
      items_eq_ok.mpr rfl, ok_bind, hcolumn, hscalars, hscalars]
    rfl

/-! ## Both sums -/

/-- A buffer that is decoded has a root that shows a tree of that value. -/
theorem exists_shows_of_decodeBuffer {bytes : ByteArray} {maxDepth : Nat} {value : Value}
    (h : Eager.decodeBuffer maxDepth bytes = .ok value) :
    ∃ root tree, View.root bytes = .ok root ∧ root.Shows tree ∧ tree.promote = some value := by
  obtain ⟨r, tree, hparse, hunfolds, -, hpromote⟩ := Eager.decodeBuffer_eq_ok.mp h
  exact ⟨⟨r, 0⟩, tree, View.root_eq_ok hparse hunfolds, hunfolds, hpromote⟩

/-! ### A sample -/

/-- No runs. -/
def noRuns : RunPolicy := ⟨none, false⟩

theorem valid_noRuns : noRuns.Valid := by
  intro minimum h
  cases h

/-- A package with two columns: the values of `x` are below a head that is no list,
and `y` is written cell by cell. -/
def samplePackage : List Tree :=
  [.node "resources" [.node "List" [.node "Object" [.node "path" [.node "Table" [
    .node "x" [.scalar (.symbol "x"), .node "Cells" [.scalar (.long 1)]],
    .node "y" [.scalar (.symbol "Missing"), .scalar (.long 1), .scalar (.double 0)]]]]]]]

/-- The value of the package. -/
def sampleMembers : List (String × Value) :=
  [("resources", .list [.object [("path", .table [
    ("x", .expression "Cells" [.scalar (.long 1)]),
    ("y", .list [.scalar (.symbol "Missing"), .scalar (.long 1), .scalar (.double 0)])])]])]

/-- The buffer of the package. -/
def sampleBytes : ByteArray := (Tree.node "Object" samplePackage).toBytes noRuns

theorem storable_samplePackage : (Tree.node "Object" samplePackage).Storable := by
  simp only [samplePackage, Tree.Storable, Tree.AllStorable, Scalar.Storable]
  decide

theorem fitsMemory_sampleBytes : FitsMemory sampleBytes := by
  unfold FitsMemory
  decide +kernel

theorem decodeBuffer_sampleBytes :
    Eager.decodeBuffer defaultMaxDepth sampleBytes = .ok (.object sampleMembers) :=
  (Tree.decodeBuffer_toBytes valid_noRuns storable_samplePackage (by decide)
    fitsMemory_sampleBytes _ _).mpr ⟨by decide, rfl⟩

/-- Through a view, column `x` has a sum. -/
theorem sumView_sampleBytes :
    ∃ root, View.root sampleBytes = .ok root ∧
      sumView root "x" = .ok (Aggregate.ofScalars [.long 1]) := by
  obtain ⟨r, hparse, hunfolds, -⟩ := Tree.parse_toBytes valid_noRuns storable_samplePackage
    (by decide) fitsMemory_sampleBytes
  have hshows : View.Shows ⟨r, 0⟩ (.node "Object" samplePackage) := hunfolds
  have haddends : addendsView ⟨r, 0⟩ "x" = .ok [.long 1] :=
    (addendsView_matches hshows).eq_ok_iff.mpr rfl
  refine ⟨_, View.root_eq_ok hparse hunfolds, ?_⟩
  rw [sumView_eq, haddends]
  rfl

/-! ### The theorems -/

/-- **Where the decoded value has a sum, a view has the same one.** The two are
not only equal: both add the same scalars in the same order, so that no rounding
and no NaN can come between them. -/
theorem sumView_eq_of_sumValue {bytes : ByteArray} {maxDepth : Nat}
    {members : List (String × Value)} {column : String} {a : Aggregate}
    (hdecode : Eager.decodeBuffer maxDepth bytes = .ok (.object members))
    (hsum : sumValue (.object members) column = .ok a) :
    ∃ root addends, View.root bytes = .ok root ∧
      addendsView root column = .ok addends ∧
      addendsValue (.object members) column = .ok addends ∧
      sumView root column = .ok a ∧ a = Aggregate.ofScalars addends := by
  obtain ⟨root, tree, hroot, hshows, hpromote⟩ := exists_shows_of_decodeBuffer hdecode
  rw [sumValue_eq, bind_pure_eq_ok] at hsum
  obtain ⟨addends, haddends, rfl⟩ := hsum
  have htree := ((addendsValue_eq_ok hpromote).mp haddends).2
  have hview := (addendsView_matches hshows).eq_ok_iff.mpr htree
  refine ⟨root, addends, hroot, hview, haddends, ?_, rfl⟩
  rw [sumView_eq, hview]
  rfl

/-- Column `y` of the sample has one sum. -/
theorem sumView_eq_of_sumValue_sample :
    ∃ root addends, View.root sampleBytes = .ok root ∧ addendsView root "y" = .ok addends ∧
      sumView root "y" = .ok (Aggregate.ofScalars [.double 0, .long 1]) := by
  have hsum : sumValue (.object sampleMembers) "y" =
      .ok (Aggregate.ofScalars [.double 0, .long 1]) := by
    rw [sumValue_eq]
    rfl
  obtain ⟨root, addends, hroot, haddends, -, hview, -⟩ :=
    sumView_eq_of_sumValue decodeBuffer_sampleBytes hsum
  exact ⟨root, addends, hroot, haddends, hview⟩

/-- Where the tree has cells, only a container that is no list can keep the value
from having a sum. -/
theorem sumValue_eq_error (h : tree.promote = some (.object entries)) {cells : Tree}
    (hcells : cellsTree tree column = some cells) (hlisted : ¬ Listed (.object entries) column) :
    ∃ kind, sumValue (.object entries) column = .error (.ofCause (.typeMismatch "List" kind)) := by
  obtain ⟨table, htable, hcolumn⟩ := Option.bind_eq_some_iff.mp hcells
  obtain ⟨entry, hentry, -⟩ := Option.bind_eq_some_iff.mp htable
  have hrel := Tree.rel_lookup_object h "resources"
  rw [hentry] at hrel
  obtain ⟨resources, hfound, -⟩ := exists_of_rel_some_left hrel
  have hget : get (.object entries) "resources" = .ok resources := get_eq_ok.mpr hfound
  by_cases hlist : ∃ found, resources = .list found
  · obtain ⟨found, rfl⟩ := hlist
    have hmatches := tableValue_matches h hfound
    rw [htable] at hmatches
    obtain ⟨_, hvalue, columns, rfl, hpromote⟩ := hmatches.exists_of_some
    have hrel := Tree.rel_column? hpromote column
    rw [hcolumn] at hrel
    obtain ⟨value, hvalues, -⟩ := exists_of_rel_some_left hrel
    have hcolumnValue : get (.table columns) column = .ok value := get_eq_ok.mpr hvalues
    have hother : ∀ found, value ≠ .list found := by
      rintro found rfl
      refine hlisted ⟨⟨_, hfound⟩, fun other hother => ⟨found, ?_⟩⟩
      rw [hvalue] at hother
      cases hother
      exact hvalues
    rw [sumValue, hvalue, ok_bind, hcolumnValue, ok_bind, items_eq_error hother]
    exact ⟨_, rfl⟩
  · have hother : ∀ found, resources ≠ .list found := fun found heq => hlist ⟨found, heq⟩
    rw [sumValue, tableValue, hget, ok_bind, items_eq_error hother]
    exact ⟨_, rfl⟩

/-- **When a sum through a view is one in the decoded value.** A view has it with
any container in place of the list of resources or of the list of the values of a
named column. The decoded value has it exactly if both are lists, and blames the
one that is not. -/
theorem sumValue_eq_iff_listed {bytes : ByteArray} {maxDepth : Nat}
    {members : List (String × Value)} {root : View} {column : String} {a : Aggregate}
    (hdecode : Eager.decodeBuffer maxDepth bytes = .ok (.object members))
    (hroot : View.root bytes = .ok root) (hsum : sumView root column = .ok a) :
    (sumValue (.object members) column = .ok a ↔ Listed (.object members) column) ∧
      (¬ Listed (.object members) column → ∃ kind,
        sumValue (.object members) column = .error (.ofCause (.typeMismatch "List" kind))) := by
  obtain ⟨root', tree, hroot', hshows, hpromote⟩ := exists_shows_of_decodeBuffer hdecode
  rw [hroot, Except.ok.injEq] at hroot'
  subst hroot'
  rw [sumView_eq, bind_pure_eq_ok] at hsum
  obtain ⟨addends, haddends, rfl⟩ := hsum
  have htree := (addendsView_matches hshows).eq_ok_iff.mp haddends
  constructor
  · constructor
    · intro h
      rw [sumValue_eq, bind_pure_eq_ok] at h
      obtain ⟨_, hvalue, -⟩ := h
      exact ((addendsValue_eq_ok hpromote).mp hvalue).1
    · intro hlisted
      rw [sumValue_eq, (addendsValue_eq_ok hpromote).mpr ⟨hlisted, htree⟩]
      rfl
  · intro hlisted
    obtain ⟨cells, hcells, -⟩ := Option.map_eq_some_iff.mp htree
    exact sumValue_eq_error hpromote hcells hlisted

/-- In the decoded value, column `x` of the sample has no sum. -/
theorem sumValue_eq_iff_listed_sample :
    ∃ kind, sumValue (.object sampleMembers) "x" =
      .error (.ofCause (.typeMismatch "List" kind)) := by
  obtain ⟨root, hroot, hsum⟩ := sumView_sampleBytes
  refine (sumValue_eq_iff_listed decodeBuffer_sampleBytes hroot hsum).2 fun hlisted => ?_
  obtain ⟨found, hfound⟩ := hlisted.cells _ rfl
  cases hfound

/-- A sum through a view need not be one in the decoded value. -/
theorem not_forall_sumValue_of_sumView :
    ¬ ∀ (bytes : ByteArray) (members : List (String × Value)) (root : View) (column : String)
      (a : Aggregate), Eager.decodeBuffer defaultMaxDepth bytes = .ok (.object members) →
        View.root bytes = .ok root → sumView root column = .ok a →
          sumValue (.object members) column = .ok a := by
  intro h
  obtain ⟨root, hroot, hsum⟩ := sumView_sampleBytes
  cases h _ _ _ _ _ decodeBuffer_sampleBytes hroot hsum

end Package

end FlatTree
