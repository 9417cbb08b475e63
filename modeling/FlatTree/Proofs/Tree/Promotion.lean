import Mathlib.Data.List.Forall2
import FlatTree.Value.Tree
import FlatTree.Decode.Promotion
import FlatTree.Proofs.Value.Entries

/-!
# Promotion of raw trees

What a raw tree stands for, said without any buffer. An expression headed
`List` is the list of its arguments; one headed `Object` or `Table` is a map,
and its arguments are entries, which are read as they stand; any other
expression stays as it is.

- `Tree.promote`: the value of a tree. There is none if an object or a table
  that is promoted breaks the rule for its entries.
- `Tree.Promotes`, `Tree.ObeysEntryRule`: the same condition by itself.
  `isSome_promote_iff` joins the two.
- `Tree.levels`, `Tree.nesting`: how deep the expressions of a tree nest.
-/

namespace FlatTree.Tree

/-! ## Nesting -/

mutual

/-- Levels of expressions in a tree, its own included. -/
def levels : Tree → Nat
  | scalar _ => 0
  | node _ children => levelsAll children + 1

/-- The most levels that one of some trees has. -/
def levelsAll : List Tree → Nat
  | [] => 0
  | child :: rest => max (levels child) (levelsAll rest)

end

/-- Levels of expressions below the root of a tree. -/
def nesting (tree : Tree) : Nat := tree.levels - 1

@[simp] theorem levels_scalar (value : Scalar) : (scalar value).levels = 0 := rfl

@[simp] theorem levels_node (head : String) (children : List Tree) :
    (node head children).levels = levelsAll children + 1 := rfl

@[simp] theorem levelsAll_nil : levelsAll [] = 0 := rfl

@[simp] theorem levelsAll_cons (child : Tree) (rest : List Tree) :
    levelsAll (child :: rest) = max child.levels (levelsAll rest) := rfl

theorem levels_le_of_mem {tree : Tree} :
    ∀ {trees : List Tree}, tree ∈ trees → tree.levels ≤ levelsAll trees
  | first :: rest, h => by
    rcases List.mem_cons.mp h with rfl | h
    · exact Nat.le_max_left _ _
    · exact Nat.le_trans (levels_le_of_mem h) (Nat.le_max_right _ _)

/-! ## The value of a tree -/

/-- A column is named by a symbol if that is followed by one expression and
nothing else; any other column is named by its head and holds its cells. -/
def column (head : String) : List Tree → List Value → String × Value
  | [scalar (.symbol name), node _ _], [_, value] => (name, value)
  | _, values => (head, .list values)

mutual

/-- The value of a tree, with containers promoted. -/
def promote : Tree → Option Value
  | scalar value => some (.scalar value)
  | node head children =>
    match Shape.ofHead head with
    | .list => return .list (← promoteAll children)
    | .object => return .object (Entries.ofFirst (← promoteMembers children))
    | .table => return .table (Entries.ofFirst (← promoteColumns children))
    | .generic => return .expression head (← promoteAll children)

/-- The values of trees, in order. -/
def promoteAll : List Tree → Option (List Value)
  | [] => some []
  | child :: rest => return (← promote child) :: (← promoteAll rest)

/-- The entries of an object: expressions with one argument each. -/
def promoteMembers : List Tree → Option (List (String × Value))
  | [] => some []
  | node key [child] :: rest => return (key, ← promote child) :: (← promoteMembers rest)
  | _ :: _ => none

/-- The columns of a table: expressions of either layout. -/
def promoteColumns : List Tree → Option (List (String × Value))
  | [] => some []
  | node head cells :: rest =>
    return column head cells (← promoteAll cells) :: (← promoteColumns rest)
  | scalar _ :: _ => none

end

/-- A tree is a member of an object: an expression that has the value as its
only argument. -/
def IsMember (tree : Tree) (member : String × Value) : Prop :=
  ∃ child, tree = node member.1 [child] ∧ child.promote = some member.2

/-- A tree is a column of a table. -/
def IsColumn (tree : Tree) (entry : String × Value) : Prop :=
  ∃ head cells values, tree = node head cells ∧ promoteAll cells = some values ∧
    entry = column head cells values

theorem not_isMember_scalar (value : Scalar) (member : String × Value) :
    ¬ (scalar value).IsMember member := by
  rintro ⟨child, h, -⟩
  cases h

theorem not_isColumn_scalar (value : Scalar) (entry : String × Value) :
    ¬ (scalar value).IsColumn entry := by
  rintro ⟨head, cells, values, h, -⟩
  cases h

theorem promoteAll_cons {tree : Tree} {rest : List Tree} {values : List Value} :
    promoteAll (tree :: rest) = some values ↔
      ∃ value others, tree.promote = some value ∧ promoteAll rest = some others ∧
        values = value :: others := by
  rw [promoteAll]
  cases promote tree <;> cases promoteAll rest <;> simp [eq_comm]

theorem promoteAll_eq_some :
    ∀ {trees : List Tree} {values : List Value},
      promoteAll trees = some values ↔
        List.Forall₂ (fun tree value => tree.promote = some value) trees values
  | [], values => by
    rw [promoteAll, List.forall₂_nil_left_iff, Option.some.injEq, eq_comm]
  | tree :: rest, values => by
    rw [List.forall₂_cons_left_iff, promoteAll_cons]
    constructor
    · rintro ⟨value, others, hvalue, hothers, rfl⟩
      exact ⟨value, others, hvalue, promoteAll_eq_some.mp hothers, rfl⟩
    · rintro ⟨value, others, hvalue, hothers, rfl⟩
      exact ⟨value, others, hvalue, promoteAll_eq_some.mpr hothers, rfl⟩

theorem promoteMembers_eq_some :
    ∀ {trees : List Tree} {members : List (String × Value)},
      promoteMembers trees = some members ↔ List.Forall₂ IsMember trees members
  | [], members => by
    rw [promoteMembers, List.forall₂_nil_left_iff, Option.some.injEq, eq_comm]
  | tree :: rest, members => by
    rw [List.forall₂_cons_left_iff]
    constructor
    · intro h
      rw [promoteMembers.eq_def] at h
      split at h
      · next heq => cases heq
      · next key child others heq =>
        cases heq
        obtain ⟨value, hvalue, h⟩ := Option.bind_eq_some_iff.mp h
        obtain ⟨found, hfound, h⟩ := Option.bind_eq_some_iff.mp h
        cases h
        exact ⟨(key, value), found, ⟨child, rfl, hvalue⟩, promoteMembers_eq_some.mp hfound, rfl⟩
      · cases h
    · rintro ⟨⟨key, value⟩, found, ⟨child, rfl, hvalue⟩, hfound, rfl⟩
      rw [promoteMembers, hvalue, promoteMembers_eq_some.mpr hfound]
      rfl

theorem promoteColumns_eq_some :
    ∀ {trees : List Tree} {columns : List (String × Value)},
      promoteColumns trees = some columns ↔ List.Forall₂ IsColumn trees columns
  | [], columns => by
    rw [promoteColumns, List.forall₂_nil_left_iff, Option.some.injEq, eq_comm]
  | tree :: rest, columns => by
    rw [List.forall₂_cons_left_iff]
    constructor
    · intro h
      cases tree with
      | scalar value => cases h
      | node head cells =>
        rw [promoteColumns] at h
        obtain ⟨values, hvalues, h⟩ := Option.bind_eq_some_iff.mp h
        obtain ⟨found, hfound, h⟩ := Option.bind_eq_some_iff.mp h
        cases h
        exact ⟨_, found, ⟨head, cells, values, rfl, hvalues, rfl⟩,
          promoteColumns_eq_some.mp hfound, rfl⟩
    · rintro ⟨_, found, ⟨head, cells, values, rfl, hvalues, rfl⟩, hfound, rfl⟩
      rw [promoteColumns, hvalues, promoteColumns_eq_some.mpr hfound]
      rfl

/-- The value of an expression, by the container that its head names. -/
theorem promote_node_eq_some {head : String} {trees : List Tree} {value : Value} :
    (node head trees).promote = some value ↔
      match Shape.ofHead head with
      | .list => ∃ items, promoteAll trees = some items ∧ value = .list items
      | .object => ∃ members, List.Forall₂ IsMember trees members ∧
          value = .object (Entries.ofFirst members)
      | .table => ∃ columns, List.Forall₂ IsColumn trees columns ∧
          value = .table (Entries.ofFirst columns)
      | .generic => ∃ arguments, promoteAll trees = some arguments ∧
          value = .expression head arguments := by
  rw [promote]
  cases Shape.ofHead head <;>
    simp only [← promoteMembers_eq_some, ← promoteColumns_eq_some] <;>
    refine Option.bind_eq_some_iff.trans (exists_congr fun _ => and_congr_right fun _ => ?_) <;>
    exact (Option.some.injEq ..).to_iff.trans eq_comm

/-- An expression never has a scalar as its value. -/
theorem isContainer_of_promote_node {head : String} {children : List Tree} {value : Value}
    (h : (node head children).promote = some value) : value.isContainer = true := by
  have hshape := promote_node_eq_some.mp h
  split at hshape <;> obtain ⟨_, _, rfl⟩ := hshape <;> rfl

theorem eq_scalar_of_promote {tree : Tree} {value : Scalar}
    (h : tree.promote = some (.scalar value)) : tree = scalar value := by
  cases tree with
  | scalar value' =>
    cases h
    rfl
  | node head children => cases isContainer_of_promote_node h

/-- Whether a column is named by a symbol can be told from the values alone, as
only an expression has a container as its value. -/
theorem column_eq_tableColumn {head : String} {cells : List Tree} {values : List Value}
    (h : promoteAll cells = some values) : column head cells values = tableColumn head values := by
  by_cases hnamed : ∃ name inner children, cells = [scalar (.symbol name), node inner children]
  · obtain ⟨name, inner, children, rfl⟩ := hnamed
    cases promoteAll_eq_some.mp h with
    | cons hname hrest =>
      cases hname
      cases hrest with
      | @cons _ value _ _ hvalue hnil =>
        cases hnil
        show (name, value) = if value.isContainer then _ else _
        rw [if_pos (isContainer_of_promote_node hvalue)]
  · have hcolumn : column head cells values = (head, .list values) := by
      rw [column.eq_def]
      split
      · next name inner children _ value => exact absurd ⟨name, inner, children, rfl⟩ hnamed
      · rfl
    rw [hcolumn, tableColumn.eq_def]
    split
    · next name value =>
      rw [if_neg]
      intro hcontainer
      -- A symbol and a container come from a symbol and an expression only.
      cases promoteAll_eq_some.mp h with
      | cons hfirst hrest =>
        cases hrest with
        | @cons second _ _ _ hsecond hnil =>
          cases hnil
          cases second with
          | scalar other =>
            cases hsecond
            cases hcontainer
          | node inner children =>
            exact hnamed ⟨name, inner, children, by rw [eq_scalar_of_promote hfirst]⟩
    · rfl

/-! ## When there is a value -/

/-- A tree contains another where containers are promoted: as an argument of a
list or of a generic expression, or as an argument of an entry. -/
inductive Promotes : Tree → Tree → Prop where
  | self {tree : Tree} : Promotes tree tree
  | argument {head : String} {children : List Tree} {child tree : Tree} :
    Shape.ofHead head = .list ∨ Shape.ofHead head = .generic →
      child ∈ children → Promotes child tree → Promotes (node head children) tree
  | entry {head key : String} {children arguments : List Tree} {child tree : Tree} :
    Shape.ofHead head = .object ∨ Shape.ofHead head = .table →
      node key arguments ∈ children → child ∈ arguments → Promotes child tree →
      Promotes (node head children) tree

/-- Every member of an object is an expression with exactly one argument, and
every column of a table is an expression. -/
def ObeysEntryRule : Tree → Prop
  | scalar _ => True
  | node head children =>
    (Shape.ofHead head = .object → ∀ child ∈ children, ∃ key value, child = node key [value]) ∧
      (Shape.ofHead head = .table → ∀ child ∈ children, ∃ key cells, child = node key cells)

/-- Every promoted part of a tree obeys the rule for entries. -/
def Promotable (tree : Tree) : Prop :=
  ∀ part, tree.Promotes part → part.ObeysEntryRule

theorem promotable_scalar (value : Scalar) : (scalar value).Promotable := by
  intro part h
  cases h
  exact trivial

theorem promotable_arguments {head : String} {children : List Tree}
    (hshape : Shape.ofHead head = .list ∨ Shape.ofHead head = .generic) :
    (node head children).Promotable ↔ ∀ child ∈ children, child.Promotable := by
  constructor
  · intro h child hchild part hpart
    exact h part (.argument hshape hchild hpart)
  · intro h part hpart
    cases hpart with
    | self =>
      -- The rule asks nothing of a list or of a generic expression.
      constructor
      · intro hobject
        rcases hshape with hs | hs <;> rw [hs] at hobject <;> cases hobject
      · intro htable
        rcases hshape with hs | hs <;> rw [hs] at htable <;> cases htable
    | argument _ hchild hpart => exact h _ hchild part hpart
    | entry hentry _ _ _ =>
      rcases hshape with hs | hs <;> rcases hentry with he | he <;> rw [hs] at he <;> cases he

theorem promotable_entries {head : String} {children : List Tree}
    (hshape : Shape.ofHead head = .object ∨ Shape.ofHead head = .table) :
    (node head children).Promotable ↔ (node head children).ObeysEntryRule ∧
      ∀ key arguments, node key arguments ∈ children →
        ∀ child ∈ arguments, child.Promotable := by
  constructor
  · intro h
    refine ⟨h _ .self, fun key arguments hentry child hchild part hpart => ?_⟩
    exact h part (.entry hshape hentry hchild hpart)
  · rintro ⟨hrule, h⟩ part hpart
    cases hpart with
    | self => exact hrule
    | argument hargument _ _ =>
      rcases hshape with hs | hs <;> rcases hargument with ha | ha <;> rw [hs] at ha <;> cases ha
    | entry _ hentry hchild hpart => exact h _ _ hentry _ hchild part hpart

mutual

/-- A tree has a value exactly when all that is promoted in it obeys the rule
for entries. -/
theorem isSome_promote_iff : ∀ tree : Tree, tree.promote.isSome ↔ tree.Promotable
  | scalar value => by
    rw [promote]
    exact iff_of_true rfl (promotable_scalar value)
  | node head children => by
    rw [promote]
    cases hshape : Shape.ofHead head with
    | list =>
      rw [promotable_arguments (.inl hshape), ← isSome_promoteAll_iff children]
      cases promoteAll children <;> rfl
    | generic =>
      rw [promotable_arguments (.inr hshape), ← isSome_promoteAll_iff children]
      cases promoteAll children <;> rfl
    | object =>
      rw [promotable_entries (.inl hshape)]
      have hmembers := isSome_promoteMembers_iff children
      rw [show (node head children).ObeysEntryRule ↔
        ∀ child ∈ children, ∃ key value, child = node key [value] by
          simp [ObeysEntryRule, hshape], ← hmembers]
      cases promoteMembers children <;> rfl
    | table =>
      rw [promotable_entries (.inr hshape)]
      have hcolumns := isSome_promoteColumns_iff children
      rw [show (node head children).ObeysEntryRule ↔
        ∀ child ∈ children, ∃ key cells, child = node key cells by
          simp [ObeysEntryRule, hshape], ← hcolumns]
      cases promoteColumns children <;> rfl

theorem isSome_promoteAll_iff :
    ∀ trees : List Tree, (promoteAll trees).isSome ↔ ∀ tree ∈ trees, tree.Promotable
  | [] => by simp [promoteAll]
  | tree :: rest => by
    rw [List.forall_mem_cons, ← isSome_promote_iff tree, ← isSome_promoteAll_iff rest, promoteAll]
    cases promote tree <;> cases promoteAll rest <;> simp

theorem isSome_promoteMembers_iff :
    ∀ trees : List Tree, (promoteMembers trees).isSome ↔
      (∀ tree ∈ trees, ∃ key value, tree = node key [value]) ∧
        ∀ key arguments, node key arguments ∈ trees →
          ∀ child ∈ arguments, child.Promotable
  | [] => by simp [promoteMembers]
  | scalar value :: rest => by
    refine iff_of_false (by simp [promoteMembers]) ?_
    rintro ⟨h, -⟩
    obtain ⟨key, child, heq⟩ := h _ List.mem_cons_self
    cases heq
  | node key [] :: rest => by
    refine iff_of_false (by simp [promoteMembers]) ?_
    rintro ⟨h, -⟩
    obtain ⟨key, child, heq⟩ := h _ List.mem_cons_self
    cases heq
  | node key (_ :: _ :: _) :: rest => by
    refine iff_of_false (by simp [promoteMembers]) ?_
    rintro ⟨h, -⟩
    obtain ⟨key, child, heq⟩ := h _ List.mem_cons_self
    cases heq
  | node key [child] :: rest => by
    have hchild := isSome_promote_iff child
    have hrest := isSome_promoteMembers_iff rest
    have hsome : (promoteMembers (node key [child] :: rest)).isSome ↔
        child.promote.isSome ∧ (promoteMembers rest).isSome := by
      rw [promoteMembers]
      cases promote child <;> cases promoteMembers rest <;> simp
    rw [hsome, hchild, hrest]
    constructor
    · rintro ⟨hc, hshape, hall⟩
      refine ⟨fun tree htree => ?_, fun k arguments hmem c hc' => ?_⟩
      · rcases List.mem_cons.mp htree with rfl | htree
        · exact ⟨key, child, rfl⟩
        · exact hshape tree htree
      · rcases List.mem_cons.mp hmem with heq | hmem
        · cases heq
          rw [List.mem_singleton] at hc'
          exact hc' ▸ hc
        · exact hall k arguments hmem c hc'
    · rintro ⟨hshape, hall⟩
      refine ⟨hall key [child] List.mem_cons_self child (List.mem_singleton_self _),
        fun tree htree => hshape tree (List.mem_cons_of_mem _ htree),
        fun k arguments hmem => hall k arguments (List.mem_cons_of_mem _ hmem)⟩

theorem isSome_promoteColumns_iff :
    ∀ trees : List Tree, (promoteColumns trees).isSome ↔
      (∀ tree ∈ trees, ∃ key cells, tree = node key cells) ∧
        ∀ key arguments, node key arguments ∈ trees →
          ∀ child ∈ arguments, child.Promotable
  | [] => by simp [promoteColumns]
  | scalar value :: rest => by
    refine iff_of_false (by simp [promoteColumns]) ?_
    rintro ⟨h, -⟩
    obtain ⟨key, cells, heq⟩ := h _ List.mem_cons_self
    cases heq
  | node head cells :: rest => by
    have hcells := isSome_promoteAll_iff cells
    have hrest := isSome_promoteColumns_iff rest
    have hsome : (promoteColumns (node head cells :: rest)).isSome ↔
        (promoteAll cells).isSome ∧ (promoteColumns rest).isSome := by
      rw [promoteColumns]
      cases promoteAll cells <;> cases promoteColumns rest <;> simp
    rw [hsome, hcells, hrest]
    constructor
    · rintro ⟨hc, hshape, hall⟩
      refine ⟨fun tree htree => ?_, fun k arguments hmem => ?_⟩
      · rcases List.mem_cons.mp htree with rfl | htree
        · exact ⟨head, cells, rfl⟩
        · exact hshape tree htree
      · rcases List.mem_cons.mp hmem with heq | hmem
        · cases heq
          exact hc
        · exact hall k arguments hmem
    · rintro ⟨hshape, hall⟩
      exact ⟨hall head cells List.mem_cons_self,
        fun tree htree => hshape tree (List.mem_cons_of_mem _ htree),
        fun k arguments hmem => hall k arguments (List.mem_cons_of_mem _ hmem)⟩

end

end FlatTree.Tree
