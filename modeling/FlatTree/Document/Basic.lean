import FlatTree.Value.Tree

/-!
# Documents

What a load service publishes: a JSON document in which references to tables are replaced by the
tables. The literals `null`, `true` and `false` are symbols, and so is an empty cell of a table.

- `Document`: a document.
- `Document.tree`: the raw tree that stands for it in a buffer.
-/

namespace FlatTree

/-- A cell of a table. -/
inductive Cell where
  | long (word : UInt64)
  | double (bits : UInt64)
  | string (text : String)
  /-- An empty cell. -/
  | missing
  deriving DecidableEq, Repr

/-- A column of a table. -/
structure Column where
  name : String
  cells : List Cell
  deriving DecidableEq, Repr

/-- A document with its tables. -/
inductive Document where
  | object (members : List (String × Document))
  | list (items : List Document)
  | table (columns : List Column)
  | long (word : UInt64)
  | double (bits : UInt64)
  | string (text : String)
  | symbol (name : String)
  deriving Repr

/-- The scalar of a cell. -/
def Cell.scalar : Cell → Scalar
  | long word => .long word
  | double bits => .double bits
  | string text => .string text
  | missing => .symbol "Missing"

/-- The expression of a column. -/
def Column.tree (column : Column) : Tree :=
  .node column.name (column.cells.map fun cell => .scalar cell.scalar)

namespace Document

mutual

/-- The raw tree of a document. -/
def tree : Document → Tree
  | object members => .node "Object" (memberTrees members)
  | list items => .node "List" (itemTrees items)
  | table columns => .node "Table" (columns.map Column.tree)
  | long word => .scalar (.long word)
  | double bits => .scalar (.double bits)
  | string text => .scalar (.string text)
  | symbol name => .scalar (.symbol name)

/-- The raw trees of items. -/
def itemTrees : List Document → List Tree
  | [] => []
  | item :: rest => tree item :: itemTrees rest

/-- The raw trees of members: each is headed by its key and has the value as its argument. -/
def memberTrees : List (String × Document) → List Tree
  | [] => []
  | (key, value) :: rest => .node key [tree value] :: memberTrees rest

end

end Document

end FlatTree
