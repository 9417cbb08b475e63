import FlatTree.Json.Basic
import FlatTree.Value.Basic

/-!
# Values as JSON

A document that was loaded from JSON has symbols for the literals `null`, `true` and `false`; here
they become the literals again. Numbers that JSON cannot write become `null`, other symbols become
strings, and a generic expression becomes an object of its head and its arguments.

- `Value.toJson`: the JSON document of a value.
-/

namespace FlatTree

/-- The JSON document of a symbol. -/
def Json.ofSymbol (name : String) : Json :=
  if name = "Null" then .null
  else if name = "True" then .bool true
  else if name = "False" then .bool false
  else .string name

/-- The JSON document of a scalar. -/
def Scalar.toJson : Scalar → Json
  | bool value => .bool value
  | long word => .number (.integer word.toNat)
  | double bits =>
    if Binary64.isNaN bits || Binary64.isInfinite bits then .null else .number (.double bits)
  | string text => .string text
  | symbol name => Json.ofSymbol name

namespace Value

mutual

/-- The JSON document of a value. -/
def toJson : Value → Json
  | scalar value => value.toJson
  | object entries => .object (entriesToJson entries)
  | list items => .array (itemsToJson items)
  | table columns => .object (entriesToJson columns)
  | expression head arguments =>
    .object [("head", .string head), ("arguments", .array (itemsToJson arguments))]

/-- The JSON documents of values. -/
def itemsToJson : List Value → List Json
  | [] => []
  | item :: rest => toJson item :: itemsToJson rest

/-- The members of entries. -/
def entriesToJson : List (String × Value) → List (String × Json)
  | [] => []
  | (key, value) :: rest => (key, toJson value) :: entriesToJson rest

end

end Value

end FlatTree
