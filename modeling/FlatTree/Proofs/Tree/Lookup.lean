import FlatTree.Proofs.Tree.Promotion

/-!
# Steps in a raw tree

A part of a tree can be found by heads alone, and the value of that part in the
value of the tree: under a key of a map, or as an item of a list.

- `Tree.lookup`, `Tree.first?`, `Tree.column?`, `Tree.scalarsOf`: the steps in a
  tree.
- `Tree.rel_lookup_object`, `Tree.rel_lookup_shape`, `Tree.rel_column?`: in a tree
  that has a value, they find the parts of which the value has the values.
-/

namespace FlatTree

section OptionRel

variable {α β : Type} {R : α → β → Prop}

theorem exists_of_rel_some_left {a : α} {b? : Option β} (h : Option.Rel R (some a) b?) :
    ∃ b, b? = some b ∧ R a b := by
  cases h with
  | some hab => exact ⟨_, rfl, hab⟩

theorem exists_of_rel_some_right {a? : Option α} {b : β} (h : Option.Rel R a? (some b)) :
    ∃ a, a? = some a ∧ R a b := by
  cases h with
  | some hab => exact ⟨_, rfl, hab⟩

theorem eq_none_of_rel_none {a? : Option α} (h : Option.Rel R a? (none : Option β)) :
    a? = none := by
  cases h
  rfl

end OptionRel

/-- Lists of entries with the same keys hold related values under each key. -/
theorem Entries.rel_find? {α β : Type} {R : α → β → Prop} (key : String)
    {as : List (String × α)} {bs : List (String × β)}
    (h : List.Forall₂ (fun a b => a.1 = b.1 ∧ R a.2 b.2) as bs) :
    Option.Rel R (Entries.find? key as) (Entries.find? key bs) := by
  induction h with
  | nil => exact .none
  | @cons a b _ _ hentry _ ih =>
    obtain ⟨hkey, hvalue⟩ := hentry
    rw [Entries.find?, Entries.find?, ← hkey]
    by_cases hk : key = a.1
    · rw [if_pos hk, if_pos hk]
      exact .some hvalue
    · rw [if_neg hk, if_neg hk]
      exact ih

/-- The head that a container reserves is the one that names it. -/
theorem Shape.ofHead_eq {shape : Shape} {head name : String} (hname : shape.head? = some name) :
    Shape.ofHead head = shape ↔ head = name := by
  cases shape <;> cases hname <;> simp only [Shape.ofHead] <;> split_ifs <;> simp_all

/-- The container that a value is. A scalar is none. -/
def Value.shape? : Value → Option Shape
  | scalar _ => none
  | object _ => some .object
  | list _ => some .list
  | table _ => some .table
  | expression _ _ => some .generic

/-- A value that is a scalar of one type. -/
def Value.scalarOf? (type : SlotType) : Value → Option Scalar
  | scalar value => if value.type = type then some value else none
  | _ => none

namespace Tree

/-- The arguments of an expression. A scalar has none. -/
def arguments : Tree → List Tree
  | scalar _ => []
  | node _ children => children

/-- Arguments have fewer levels. -/
theorem levels_lt_of_mem_arguments {part tree : Tree} (h : part ∈ tree.arguments) :
    part.levels < tree.levels := by
  cases tree with
  | scalar value => cases h
  | node head children => exact Nat.lt_succ_of_le (levels_le_of_mem h)

/-- An expression, under its head. -/
def headed : Tree → Option (String × Tree)
  | scalar _ => none
  | node head children => some (head, node head children)

/-- The first argument with this head. -/
def lookup (key : String) (tree : Tree) : Option Tree :=
  Entries.find? key (tree.arguments.filterMap headed)

/-- What a lookup finds is an argument. -/
theorem mem_arguments_of_lookup {key : String} {part tree : Tree}
    (h : tree.lookup key = some part) : part ∈ tree.arguments := by
  rw [lookup] at h
  generalize tree.arguments = trees at h
  induction trees with
  | nil => cases h
  | cons first rest ih =>
    cases first with
    | scalar value => exact List.mem_cons_of_mem _ (ih h)
    | node head children =>
      have hfind : (if key = head then some (node head children)
        else Entries.find? key (rest.filterMap headed)) = some part := h
      split at hfind
      · cases hfind
        exact List.mem_cons_self
      · exact List.mem_cons_of_mem _ (ih hfind)

/-- The first argument, if it is an expression. -/
def first? (tree : Tree) : Option Tree :=
  match tree.arguments with
  | node head children :: _ => some (node head children)
  | _ => none

/-- The expression that has the cells of a column as its arguments, under the
name of the column. -/
def cellsOf : Tree → Option (String × Tree)
  | scalar _ => none
  | node _ [scalar (.symbol name), node inner values] => some (name, node inner values)
  | node head cells => some (head, node head cells)

/-- Any other entry than a named column has its cells as arguments. -/
theorem cellsOf_of_ne {head : String} {cells : List Tree}
    (h : ∀ name inner values, cells ≠ [scalar (.symbol name), node inner values]) :
    (node head cells).cellsOf = some (head, node head cells) := by
  rw [cellsOf.eq_def]
  split
  · next heq => cases heq
  · next _ name inner values heq =>
    cases heq
    exact (h name inner values rfl).elim
  · next _ _ _ heq =>
    cases heq
    rfl

/-- The cells of the first column of this name. -/
def column? (name : String) (tree : Tree) : Option Tree :=
  Entries.find? name (tree.arguments.filterMap cellsOf)

/-- A scalar of one type. -/
def scalar? (type : SlotType) : Tree → Option Scalar
  | scalar value => if value.type = type then some value else none
  | node _ _ => none

/-- The scalars of one type among the arguments. -/
def scalarsOf (type : SlotType) (tree : Tree) : List Scalar :=
  tree.arguments.filterMap (scalar? type)

/-! ## The same steps in the value -/

/-- A value has the shape that the head of its tree names. -/
theorem shape?_of_promote {head : String} {children : List Tree} {value : Value}
    (h : (node head children).promote = some value) : value.shape? = some (Shape.ofHead head) := by
  have hshape := promote_node_eq_some.mp h
  split at hshape <;> next heq => obtain ⟨_, _, rfl⟩ := hshape; rw [heq]; rfl

theorem exists_of_promote_object {tree : Tree} {entries : List (String × Value)}
    (h : tree.promote = some (.object entries)) :
    ∃ trees members, tree = node "Object" trees ∧ List.Forall₂ IsMember trees members ∧
      entries = Entries.ofFirst members := by
  cases tree with
  | scalar value => cases h
  | node head trees =>
    have hshape := promote_node_eq_some.mp h
    split at hshape <;> obtain ⟨members, hmembers, heq⟩ := hshape <;> cases heq
    next hobject => exact ⟨trees, members, by rw [(Shape.ofHead_eq rfl).mp hobject], hmembers, rfl⟩

theorem exists_of_promote_list {tree : Tree} {items : List Value}
    (h : tree.promote = some (.list items)) :
    ∃ trees, tree = node "List" trees ∧ promoteAll trees = some items := by
  cases tree with
  | scalar value => cases h
  | node head trees =>
    have hshape := promote_node_eq_some.mp h
    split at hshape <;> obtain ⟨found, hfound, heq⟩ := hshape <;> cases heq
    next hlist => exact ⟨trees, by rw [(Shape.ofHead_eq rfl).mp hlist], hfound⟩

theorem exists_of_promote_table {tree : Tree} {entries : List (String × Value)}
    (h : tree.promote = some (.table entries)) :
    ∃ trees columns, tree = node "Table" trees ∧ List.Forall₂ IsColumn trees columns ∧
      entries = Entries.ofFirst columns := by
  cases tree with
  | scalar value => cases h
  | node head trees =>
    have hshape := promote_node_eq_some.mp h
    split at hshape <;> obtain ⟨columns, hcolumns, heq⟩ := hshape <;> cases heq
    next htable => exact ⟨trees, columns, by rw [(Shape.ofHead_eq rfl).mp htable], hcolumns, rfl⟩

/-- A tree is an entry that holds a value: the tree of the value is its only
argument. -/
def Holds (tree : Tree) (value : Value) : Prop :=
  ∃ child, tree.arguments = [child] ∧ child.promote = some value

/-- **Under a key of an object stands the value of the entry of that head.** -/
theorem rel_lookup_object {tree : Tree} {entries : List (String × Value)}
    (h : tree.promote = some (.object entries)) (key : String) :
    Option.Rel Holds (tree.lookup key) (Entries.find? key entries) := by
  obtain ⟨trees, members, rfl, hmembers, rfl⟩ := exists_of_promote_object h
  rw [Entries.find?_ofFirst]
  refine Entries.rel_find? key ?_
  show List.Forall₂ _ (trees.filterMap headed) members
  clear h
  induction hmembers with
  | nil => exact .nil
  | @cons _ member _ _ hmember _ ih =>
    obtain ⟨child, rfl, hchild⟩ := hmember
    exact .cons ⟨rfl, child, rfl, hchild⟩ ih

/-- **The first argument of a head is the first value of the shape it names.** -/
theorem rel_lookup_shape {tree : Tree} {values : List Value}
    (h : promoteAll tree.arguments = some values) {shape : Shape} {key : String}
    (hkey : shape.head? = some key) {isShape : Value → Bool}
    (hshape : ∀ value, isShape value ↔ value.shape? = some shape) :
    Option.Rel (fun child value => child.promote = some value) (tree.lookup key)
      (values.find? isShape) := by
  rw [promoteAll_eq_some] at h
  rw [lookup]
  generalize tree.arguments = trees at h
  induction h with
  | nil => exact .none
  | @cons child value _ _ hchild _ ih =>
    cases child with
    | scalar found =>
      cases hchild
      have hother : ¬ isShape (.scalar found) := fun h => nomatch (hshape _).mp h
      rw [List.find?_cons_of_neg hother]
      exact ih
    | node head children =>
      have hhead : isShape value ↔ key = head := by
        rw [hshape, shape?_of_promote hchild, Option.some.injEq, Shape.ofHead_eq hkey, eq_comm]
      show Option.Rel _ (if key = head then some (node head children) else _) _
      by_cases hk : key = head
      · rw [if_pos hk, List.find?_cons_of_pos (hhead.mpr hk)]
        exact .some hchild
      · rw [if_neg hk, List.find?_cons_of_neg (mt hhead.mp hk)]
        exact ih

/-- A list has the items that its arguments promote to. -/
theorem promoteAll_arguments_of_list {tree : Tree} {items : List Value}
    (h : tree.promote = some (.list items)) : promoteAll tree.arguments = some items := by
  obtain ⟨trees, rfl, hitems⟩ := exists_of_promote_list h
  exact hitems

/-- An entry has the value that it holds as its only one. -/
theorem Holds.promoteAll_arguments {entry : Tree} {value : Value} (h : entry.Holds value) :
    promoteAll entry.arguments = some [value] := by
  obtain ⟨child, hchild, hvalue⟩ := h
  rw [hchild]
  exact promoteAll_cons.mpr ⟨value, [], hvalue, rfl, rfl⟩

/-- The cells of a column are the items of its value, which the values of a named
column need not be: their head may be any other. -/
def HoldsCells (cells : Tree) (value : Value) : Prop :=
  (∃ items, promoteAll cells.arguments = some items ∧ value = .list items) ∨
    cells.promote = some value

/-- Where the value is a list, its items are the values of the cells. -/
theorem HoldsCells.promoteAll_arguments {cells : Tree} {items : List Value}
    (h : cells.HoldsCells (.list items)) : Tree.promoteAll cells.arguments = some items := by
  rcases h with ⟨found, hfound, heq⟩ | h
  · cases heq
    exact hfound
  · exact promoteAll_arguments_of_list h

/-- A column of either layout has its cells in its value. -/
theorem IsColumn.cellsOf {tree : Tree} {entry : String × Value} (h : tree.IsColumn entry) :
    ∃ cells, tree.cellsOf = some (entry.1, cells) ∧ cells.HoldsCells entry.2 := by
  obtain ⟨head, cells, values, rfl, hvalues, rfl⟩ := h
  by_cases hnamed : ∃ name inner children, cells = [scalar (.symbol name), node inner children]
  · obtain ⟨name, inner, children, rfl⟩ := hnamed
    cases promoteAll_eq_some.mp hvalues with
    | cons _ hrest =>
      cases hrest with
      | cons hvalue hnil =>
        cases hnil
        exact ⟨node inner children, rfl, .inr hvalue⟩
  · rw [cellsOf_of_ne fun name inner children heq => hnamed ⟨name, inner, children, heq⟩]
    rw [column.eq_def]
    split
    · next name inner children _ _ => exact (hnamed ⟨name, inner, children, rfl⟩).elim
    · exact ⟨_, rfl, .inl ⟨values, hvalues, rfl⟩⟩

/-- **Under a name of a table stand the values of the cells of that column.** -/
theorem rel_column? {tree : Tree} {entries : List (String × Value)}
    (h : tree.promote = some (.table entries)) (name : String) :
    Option.Rel HoldsCells (tree.column? name) (Entries.find? name entries) := by
  obtain ⟨trees, columns, rfl, hcolumns, rfl⟩ := exists_of_promote_table h
  rw [Entries.find?_ofFirst]
  refine Entries.rel_find? name ?_
  show List.Forall₂ _ (trees.filterMap Tree.cellsOf) columns
  clear h
  induction hcolumns with
  | nil => exact .nil
  | cons hcolumn _ ih =>
    obtain ⟨cells, hcells, hholds⟩ := hcolumn.cellsOf
    rw [List.filterMap_cons_some hcells]
    exact .cons ⟨rfl, hholds⟩ ih

/-- The scalars among arguments are those among their values. -/
theorem scalarsOf_eq_filterMap {type : SlotType} {tree : Tree} {values : List Value}
    (h : promoteAll tree.arguments = some values) :
    tree.scalarsOf type = values.filterMap (Value.scalarOf? type) := by
  rw [scalarsOf]
  rw [promoteAll_eq_some] at h
  generalize tree.arguments = trees at h
  induction h with
  | nil => rfl
  | @cons child value _ _ hchild _ ih =>
    have hsame : scalar? type child = Value.scalarOf? type value := by
      cases child with
      | scalar found =>
        cases hchild
        rfl
      | node head children =>
        have hcontainer := isContainer_of_promote_node hchild
        cases value with
        | scalar found => cases hcontainer
        | _ => rfl
    rw [List.filterMap_cons, List.filterMap_cons, hsame, ih]

end Tree

end FlatTree
