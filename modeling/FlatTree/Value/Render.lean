import FlatTree.Value.Basic
import FlatTree.Number.Style
import FlatTree.Text.Quoted

/-!
# Rendered values

The one-line text of a value:

```text
true  42  1.5  "text"  'symbol
(head argument argument)  [item, item]  {key: value}  Table{name: [cell, cell]}
```

Heads, keys and symbols stand as they are; only strings are quoted.

- `Value.render`: the text.
-/

namespace FlatTree

/-- The text of a scalar. -/
def Scalar.render : Scalar → String
  | bool value => if value then "true" else "false"
  | long word => toString word.toNat
  | double bits => Style.valueText.write bits
  | string text => Quoted.quote text
  | symbol name => "'" ++ name

namespace Value

mutual

/-- The text of a value. -/
def render : Value → String
  | scalar value => value.render
  | object entries => "\x7b" ++ ", ".intercalate (renderEntries entries) ++ "\x7d"
  | list items => "[" ++ ", ".intercalate (renderItems items) ++ "]"
  | table columns => "Table\x7b" ++ ", ".intercalate (renderEntries columns) ++ "\x7d"
  | expression head arguments => "(" ++ " ".intercalate (head :: renderItems arguments) ++ ")"

/-- The texts of values. -/
def renderItems : List Value → List String
  | [] => []
  | value :: rest => render value :: renderItems rest

/-- The texts of entries, each a key and its value. -/
def renderEntries : List (String × Value) → List String
  | [] => []
  | (key, value) :: rest => (key ++ ": " ++ render value) :: renderEntries rest

end

end Value

end FlatTree
