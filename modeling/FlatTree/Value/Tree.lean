import FlatTree.Buffer.Slot

/-!
# Raw trees

A tree of scalars and headed expressions before any container is recognised. It is what a buffer
stores, what a builder lays out, and what unfolding a view gives back.
-/

namespace FlatTree

/-- A scalar, or an expression with a head and children. -/
inductive Tree where
  | scalar (value : Scalar)
  | node (head : String) (children : List Tree)
  deriving Repr

namespace Tree

/-- The slot type under which a parent holds this child. -/
def type : Tree → SlotType
  | scalar value => value.type
  | node _ _ => .expression

/-! ## Trees of the usual containers -/

/-- A list of items. -/
def list (items : List Tree) : Tree := node "List" items

/-- An object: one expression per entry, headed by the key, with the value as its argument. -/
def object (entries : List (String × Tree)) : Tree :=
  node "Object" (entries.map fun entry => node entry.1 [entry.2])

/-- A table of named columns: each is headed by its name and holds the name as a symbol and the
values. -/
def namedTable (columns : List (String × Tree)) : Tree :=
  node "Table" (columns.map fun column =>
    node column.1 [scalar (.symbol column.1), column.2])

/-- A table written cell by cell: each column is headed by its name and holds its cells. -/
def cellTable (columns : List (String × List Tree)) : Tree :=
  node "Table" (columns.map fun column => node column.1 column.2)

/-- A data package with one resource. -/
def dataPackage (table : Tree) : Tree :=
  object [
    ("name", scalar (.string "datapackage")),
    ("resources", list [object [("name", scalar (.string "data")), ("path", table)]])]

end Tree

end FlatTree
