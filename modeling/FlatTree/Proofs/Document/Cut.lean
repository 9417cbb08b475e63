import FlatTree.Document.Load
import FlatTree.Proofs.Document.Json
import FlatTree.Proofs.Document.Table

/-!
# Documents with texts of any kind

Cutting the texts of a document cuts those of its tree. A document that is loaded
has texts from a JSON document, which may be known to have no character of code
zero, and texts from tables. It is cut by cutting the tables.

- `Document.cut`: a document with its texts cut.
- `Document.tree_cut`: its tree.
- `Document.decodeBuffer_eq_ok_iff_cut`: what is decoded from the buffer of the document.
- `Document.ofJson_cut`: a document that is loaded is cut in its tables.
- `Table.scalarsOf_map_cut`: the numbers of a column are not cut.
-/

namespace FlatTree

/-- A cell with its text cut. -/
def Cell.cut : Cell → Cell
  | .string text => .string (Heap.cut text)
  | cell => cell

/-- A column with its name and its texts cut. -/
def Column.cut (column : Column) : Column :=
  ⟨Heap.cut column.name, column.cells.map Cell.cut⟩

theorem Cell.scalar_cut (cell : Cell) : cell.cut.scalar = cell.scalar.cut := by
  cases cell with
  | missing =>
    have hstorable : (Scalar.symbol "Missing").Storable := by decide
    exact hstorable.cut_eq.symm
  | _ => rfl

/-- The numbers among cells are not cut. -/
theorem Table.scalarsOf_map_cut {type : SlotType} (htype : type ≠ .string) (cells : List Cell) :
    Table.scalarsOf type (cells.map Cell.cut) = Table.scalarsOf type cells := by
  rw [Table.scalarsOf, Table.scalarsOf, List.filterMap_map]
  refine List.filterMap_congr fun cell _ => ?_
  cases cell with
  | string text => exact (if_neg (Ne.symm htype)).trans (if_neg (Ne.symm htype)).symm
  | _ => rfl

namespace Document

mutual

/-- A document with its keys, names and texts cut. -/
def cut : Document → Document
  | object members => object (cutMembers members)
  | list items => list (cutItems items)
  | table columns => table (columns.map Column.cut)
  | string text => string (Heap.cut text)
  | symbol name => symbol (Heap.cut name)
  | document => document

/-- Items with their texts cut. -/
def cutItems : List Document → List Document
  | [] => []
  | item :: rest => cut item :: cutItems rest

/-- Members with their keys and texts cut. -/
def cutMembers : List (String × Document) → List (String × Document)
  | [] => []
  | (key, member) :: rest => (Heap.cut key, cut member) :: cutMembers rest

end

theorem cutAll_cells :
    ∀ cells : List Cell, Tree.cutAll (cells.map fun cell => .scalar cell.scalar) =
      (cells.map Cell.cut).map fun cell => .scalar cell.scalar
  | [] => rfl
  | cell :: rest => by
    rw [List.map_cons, List.map_cons, List.map_cons, Tree.cutAll, Tree.cut, Cell.scalar_cut,
      cutAll_cells rest]

theorem cutAll_columns :
    ∀ columns : List Column,
      Tree.cutAll (columns.map Column.tree) = (columns.map Column.cut).map Column.tree
  | [] => rfl
  | column :: rest => by
    rw [List.map_cons, List.map_cons, List.map_cons, Tree.cutAll, Column.tree, Tree.cut,
      cutAll_cells, cutAll_columns rest]
    rfl

mutual

/-- **A document that is cut has the tree that is cut.** -/
theorem tree_cut : ∀ document : Document, document.cut.tree = document.tree.cut
  | object members => by
    rw [tree, Tree.cut, cutAll_memberTrees,
      Heap.Storable.cut_eq (show Heap.Storable "Object" by decide)]
    rfl
  | list items => by
    rw [tree, Tree.cut, cutAll_itemTrees,
      Heap.Storable.cut_eq (show Heap.Storable "List" by decide)]
    rfl
  | table columns => by
    rw [tree, Tree.cut, cutAll_columns,
      Heap.Storable.cut_eq (show Heap.Storable "Table" by decide)]
    rfl
  | long _ => rfl
  | double _ => rfl
  | string _ => rfl
  | symbol _ => rfl

theorem cutAll_itemTrees :
    ∀ items : List Document, Tree.cutAll (itemTrees items) = itemTrees (cutItems items)
  | [] => rfl
  | item :: rest => by
    rw [itemTrees, Tree.cutAll, cutItems, itemTrees, tree_cut item, cutAll_itemTrees rest]

theorem cutAll_memberTrees :
    ∀ members : List (String × Document),
      Tree.cutAll (memberTrees members) = memberTrees (cutMembers members)
  | [] => rfl
  | (key, member) :: rest => by
    rw [memberTrees, Tree.cutAll, cutMembers, memberTrees, tree_cut member,
      cutAll_memberTrees rest]
    rfl

end

section Buffer

variable {document : Document} {bytes : ByteArray} (hroot : document.IsContainer)
  (hbytes : document.toBytes? = some bytes) (hsize : FitsMemory bytes)

include hroot hbytes hsize

/-- The buffer of a document is decoded to the value of the document with its texts cut, exactly
if the lengths of all runs are read back. -/
theorem decodeBuffer_eq_ok_iff_cut (hnesting : document.cut.tree.nesting ≤ defaultMaxDepth)
    {value : Value} :
    Eager.decodeBuffer defaultMaxDepth bytes = .ok value ↔
      document.tree.Legible .document ∧ value = document.cut.value := by
  have hvalue := promote_tree document.cut
  rw [tree_cut] at hnesting hvalue
  obtain ⟨hdecodes, hfails⟩ := decodes_or_isShortRun hroot hbytes hsize hnesting hvalue
  constructor
  · intro h
    by_cases hlegible : document.tree.Legible .document
    · exact ⟨hlegible, Except.ok.inj (h.symm.trans (hdecodes hlegible))⟩
    · obtain ⟨e, hfailed, -⟩ := hfails hlegible
      cases h.symm.trans hfailed
  · rintro ⟨hlegible, rfl⟩
    exact hdecodes hlegible

/-- If they are, it unfolds to the tree of that document. -/
theorem unfolds_tree_cut (hlegible : document.tree.Legible .document) :
    ∃ r, Regions.parse bytes = .ok r ∧ Unfolds r 0 document.cut.tree := by
  rw [tree_cut]
  exact unfolds_cut hroot hbytes hsize hlegible

end Buffer

end Document

/-! ## Documents that are loaded -/

/-- The heap can hold a string, or the keys of an object. -/
def Json.Storable : Json → Prop
  | string text => Heap.Storable text
  | object members => ∀ member ∈ members, Heap.Storable member.1
  | _ => True

namespace Document

variable {table : String → Except LoadError (List Column)}

/-- Tables with their texts cut. -/
def cutTable (table : String → Except LoadError (List Column)) (name : String) :
    Except LoadError (List Column) :=
  (table name).map (List.map Column.cut)

mutual

/-- **What is loaded is cut in its tables**, if the heap can hold all texts of the
JSON document. -/
theorem ofJson_cut :
    ∀ {json : Json} {document : Document}, json.All Json.Storable →
      ofJson table json = .ok document → ofJson (cutTable table) json = .ok document.cut
  | .null, _, _, h => by
    cases h
    exact congrArg _ (congrArg symbol (Heap.Storable.cut_eq (by decide)).symm)
  | .bool value, _, _, h => by
    cases h
    cases value <;> exact congrArg _ (congrArg symbol (Heap.Storable.cut_eq (by decide)).symm)
  | .number (.integer _), _, _, h => by
    cases h
    rfl
  | .number (.double _), _, _, h => by
    cases h
    rfl
  | .string text, _, hstorable, h => by
    rw [ofJson] at h ⊢
    split at h
    · next hname =>
      obtain ⟨columns, hcolumns, rfl⟩ := map_eq_ok.mp h
      rw [if_pos hname, cutTable, hcolumns]
      rfl
    · next hname =>
      cases h
      rw [if_neg hname, cut, Heap.Storable.cut_eq hstorable]
  | .array items, _, ⟨_, hitems⟩, h => by
    rw [ofJson] at h ⊢
    obtain ⟨documents, hdocuments, rfl⟩ := map_eq_ok.mp h
    rw [ofItems_cut hitems hdocuments]
    rfl
  | .object members, _, ⟨hkeys, hmembers⟩, h => by
    rw [ofJson] at h ⊢
    obtain ⟨documents, hdocuments, rfl⟩ := map_eq_ok.mp h
    rw [ofMembers_cut hkeys hmembers hdocuments]
    rfl

theorem ofItems_cut :
    ∀ {items : List Json} {documents : List Document}, Json.AllItems Json.Storable items →
      ofItems table items = .ok documents →
        ofItems (cutTable table) items = .ok (cutItems documents)
  | [], _, _, h => by
    cases h
    rfl
  | _ :: _, _, ⟨hitem, hrest⟩, h => by
    obtain ⟨document, others, hdocument, hothers, rfl⟩ := ofItems_cons.mp h
    exact ofItems_cons.mpr
      ⟨_, _, ofJson_cut hitem hdocument, ofItems_cut hrest hothers, rfl⟩

theorem ofMembers_cut :
    ∀ {members : List (String × Json)} {documents : List (String × Document)},
      (∀ member ∈ members, Heap.Storable member.1) → Json.AllMembers Json.Storable members →
        ofMembers table members = .ok documents →
          ofMembers (cutTable table) members = .ok (cutMembers documents)
  | [], _, _, _, h => by
    cases h
    rfl
  | (key, member) :: rest, _, hkeys, ⟨hmember, hrest⟩, h => by
    obtain ⟨hkey, hkeys⟩ := List.forall_mem_cons.mp hkeys
    obtain ⟨document, others, hdocument, hothers, rfl⟩ := ofMembers_cons.mp h
    refine ofMembers_cons.mpr
      ⟨_, _, ofJson_cut hmember hdocument, ofMembers_cut hkeys hrest hothers, ?_⟩
    rw [cutMembers, Heap.Storable.cut_eq hkey]

end

end Document

end FlatTree
