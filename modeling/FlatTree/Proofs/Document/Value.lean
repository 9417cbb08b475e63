import FlatTree.Document.Basic
import FlatTree.Proofs.Build.Stored
import FlatTree.Proofs.Tree.Promotion

/-!
# What a document stands for

The value of a document can be read off the document itself, with no tree and no
buffer in between. The tree of a document stands for the same.

- `Document.value`: the value of a document.
- `Document.promote_tree`: its tree promotes to that value.
- `Document.Storable`: the heap can hold all texts of a document.
- `Document.storable_tree`: it can hold those of its tree then.
-/

namespace FlatTree

/-- The name of a column and the list of its cells. -/
def Column.entry (column : Column) : String × Value :=
  (column.name, .list (column.cells.map fun cell => .scalar cell.scalar))

namespace Document

mutual

/-- The value of a document: members and columns become maps, in which the first
of a key wins, and items stay in order. -/
def value : Document → Value
  | object members => .object (Entries.ofFirst (memberValues members))
  | list items => .list (itemValues items)
  | table columns => .table (Entries.ofFirst (columns.map Column.entry))
  | long word => .scalar (.long word)
  | double bits => .scalar (.double bits)
  | string text => .scalar (.string text)
  | symbol name => .scalar (.symbol name)

/-- The values of items. -/
def itemValues : List Document → List Value
  | [] => []
  | item :: rest => value item :: itemValues rest

/-- The keys of members with their values. -/
def memberValues : List (String × Document) → List (String × Value)
  | [] => []
  | (key, member) :: rest => (key, value member) :: memberValues rest

end

/-- The root of a document is an expression. -/
def IsContainer : Document → Prop
  | object _ => True
  | list _ => True
  | table _ => True
  | _ => False

theorem IsContainer.exists_node {document : Document} (h : document.IsContainer) :
    ∃ head children, document.tree = .node head children := by
  cases document with
  | object members => exact ⟨_, _, rfl⟩
  | list items => exact ⟨_, _, rfl⟩
  | table columns => exact ⟨_, _, rfl⟩
  | long word => exact h.elim
  | double bits => exact h.elim
  | string text => exact h.elim
  | symbol name => exact h.elim

/-! ## Promotion of its tree -/

theorem promoteAll_cells :
    ∀ cells : List Cell, Tree.promoteAll (cells.map fun cell => .scalar cell.scalar) =
      some (cells.map fun cell => .scalar cell.scalar)
  | [] => rfl
  | _ :: rest => Tree.promoteAll_cons.mpr ⟨_, _, rfl, promoteAll_cells rest, rfl⟩

/-- Cells are no expressions, so a column is named by its head even if its first
cell is a symbol. -/
theorem isColumn_tree (column : Column) : column.tree.IsColumn column.entry := by
  refine ⟨_, _, _, rfl, promoteAll_cells column.cells, ?_⟩
  rw [Tree.column.eq_def]
  split
  · next name inner children _ _ heq _ =>
    have hmem : Tree.node inner children ∈
        column.cells.map fun cell => Tree.scalar cell.scalar := by
      rw [heq]
      exact List.mem_cons_of_mem _ List.mem_cons_self
    obtain ⟨cell, -, hcell⟩ := List.mem_map.mp hmem
    cases hcell
  · rfl

theorem forall₂_isColumn :
    ∀ columns : List Column,
      List.Forall₂ Tree.IsColumn (columns.map Column.tree) (columns.map Column.entry)
  | [] => .nil
  | column :: rest => .cons (isColumn_tree column) (forall₂_isColumn rest)

mutual

/-- **The tree of a document stands for the value of the document.** -/
theorem promote_tree : ∀ document : Document, document.tree.promote = some document.value
  | object members =>
    Tree.promote_node_eq_some.mpr ⟨_, forall₂_isMember members, rfl⟩
  | list items => Tree.promote_node_eq_some.mpr ⟨_, promoteAll_itemTrees items, rfl⟩
  | table columns => Tree.promote_node_eq_some.mpr ⟨_, forall₂_isColumn columns, rfl⟩
  | long _ => rfl
  | double _ => rfl
  | string _ => rfl
  | symbol _ => rfl

theorem promoteAll_itemTrees :
    ∀ items : List Document, Tree.promoteAll (itemTrees items) = some (itemValues items)
  | [] => rfl
  | item :: rest =>
    Tree.promoteAll_cons.mpr ⟨_, _, promote_tree item, promoteAll_itemTrees rest, rfl⟩

theorem forall₂_isMember :
    ∀ members : List (String × Document),
      List.Forall₂ Tree.IsMember (memberTrees members) (memberValues members)
  | [] => .nil
  | (_, member) :: rest => .cons ⟨_, rfl, promote_tree member⟩ (forall₂_isMember rest)

end

/-! ## Texts -/

mutual

/-- The heap can hold all keys, names and texts of a document. -/
def Storable : Document → Prop
  | object members => MembersStorable members
  | list items => ItemsStorable items
  | table columns => ∀ column ∈ columns,
      Heap.Storable column.name ∧ ∀ cell ∈ column.cells, cell.scalar.Storable
  | string text => Heap.Storable text
  | symbol name => Heap.Storable name
  | _ => True

/-- The heap can hold all texts of items. -/
def ItemsStorable : List Document → Prop
  | [] => True
  | item :: rest => Storable item ∧ ItemsStorable rest

/-- The heap can hold all keys and texts of members. -/
def MembersStorable : List (String × Document) → Prop
  | [] => True
  | (key, member) :: rest => Heap.Storable key ∧ Storable member ∧ MembersStorable rest

end

theorem allStorable_cells :
    ∀ {cells : List Cell}, (∀ cell ∈ cells, cell.scalar.Storable) →
      Tree.AllStorable (cells.map fun cell => .scalar cell.scalar)
  | [], _ => trivial
  | _ :: _, h => by
    obtain ⟨hcell, hrest⟩ := List.forall_mem_cons.mp h
    exact ⟨hcell, allStorable_cells hrest⟩

theorem allStorable_columns :
    ∀ {columns : List Column},
      (∀ column ∈ columns, Heap.Storable column.name ∧
        ∀ cell ∈ column.cells, cell.scalar.Storable) →
      Tree.AllStorable (columns.map Column.tree)
  | [], _ => trivial
  | _ :: _, h => by
    obtain ⟨⟨hname, hcells⟩, hrest⟩ := List.forall_mem_cons.mp h
    exact ⟨⟨hname, allStorable_cells hcells⟩, allStorable_columns hrest⟩

mutual

/-- The tree of a document has no text that is not in the document but the names
of containers. -/
theorem storable_tree : ∀ {document : Document}, document.Storable → document.tree.Storable
  | object _, h => ⟨by decide, allStorable_memberTrees h⟩
  | list _, h => ⟨by decide, allStorable_itemTrees h⟩
  | table _, h => ⟨by decide, allStorable_columns h⟩
  | long _, _ => trivial
  | double _, _ => trivial
  | string _, h => h
  | symbol _, h => h

theorem allStorable_itemTrees :
    ∀ {items : List Document}, ItemsStorable items → Tree.AllStorable (itemTrees items)
  | [], _ => trivial
  | _ :: _, h => ⟨storable_tree h.1, allStorable_itemTrees h.2⟩

theorem allStorable_memberTrees :
    ∀ {members : List (String × Document)}, MembersStorable members →
      Tree.AllStorable (memberTrees members)
  | [], _ => trivial
  | _ :: _, h => ⟨⟨h.1, storable_tree h.2.1, trivial⟩, allStorable_memberTrees h.2.2⟩

end

end Document

end FlatTree
