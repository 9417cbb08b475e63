/-!
# JSON trees

- `Json`: a JSON document.
- `Json.assign`: sets a member of an object. A key that is there already keeps its place.
-/

namespace FlatTree

/-- A number of a JSON document. -/
inductive Json.Number where
  /-- An integer of 64 bits, with a sign or without. -/
  | integer (value : Int)
  /-- A finite binary64 number, by its bits. -/
  | double (bits : UInt64)
  deriving DecidableEq, Repr

/-- A JSON document. -/
inductive Json where
  | null
  | bool (value : Bool)
  | number (value : Json.Number)
  | string (text : String)
  | array (items : List Json)
  /-- Members in the order in which their keys were first written. -/
  | object (members : List (String × Json))
  deriving Repr

namespace Json

variable {α : Type}

/-- Sets the value of a key: in the place of the key if it is there, else at the end. -/
def assign (key : String) (value : α) : List (String × α) → List (String × α)
  | [] => [(key, value)]
  | (k, v) :: rest =>
    if k = key then (key, value) :: rest else (k, v) :: assign key value rest

end Json

end FlatTree
