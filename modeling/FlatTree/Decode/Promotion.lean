import FlatTree.Decode.Error

/-!
# Promotion of containers

The rules by which headed expressions become maps and lists. Both ways of decoding a buffer share
them, and the limit on nesting.

- `headOf`: the head of an expression, which names its container.
- `objectEntry`: an entry of an object has exactly one argument, its value.
- `tableColumn`: an entry of a table is a named column or a column written cell by cell.
-/

namespace FlatTree

/-- The head of an expression. -/
def headOf (r : Regions) (index : Nat) : Decoded String := do
  let record ← Decoded.lift (r.expression index)
  Decoded.lift (Heap.textAt r.strings record.head.toNat)

/-- The nesting allowed unless the caller says otherwise. Data never nests this deep; a buffer that
does is hostile or cyclic. -/
def defaultMaxDepth : Nat := 256

/-- The value of an object entry: its only argument. -/
def objectEntry (entry : Nat) (arguments : List Value) : Decoded Value :=
  match arguments with
  | [value] => .ok value
  | _ => .error (.ofCause (.malformedShape .object entry .notOneArgument))

/-- The name and the value of a table column.

A named column holds its name as a symbol and then a container; any other entry is a column written
cell by cell, named by its head. Cells are never expressions, so a column of two cells whose first
is a symbol stays one. -/
def tableColumn (head : String) (arguments : List Value) : String × Value :=
  match arguments with
  | [.scalar (.symbol name), value] =>
    if value.isContainer then (name, value) else (head, .list arguments)
  | _ => (head, .list arguments)

end FlatTree
