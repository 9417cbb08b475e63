import FlatTree.Json.Token

/-!
# Reading JSON texts

A reader takes one token at a time and keeps the containers that are open. Arrays and objects nest
at most 127 deep.

- `Reader`: what may come next, and the open containers.
- `Reader.step`: one token.
- `Json.read?`: the document of a text.
-/

namespace FlatTree

/-- An open container that waits for a value. Items are kept last first. -/
inductive OpenContainer where
  | array (items : List Json)
  | object (members : List (String × Json)) (key : String)
  deriving Repr

/-- What may come next, with the open containers, innermost first. -/
inductive Reader where
  | value (containers : List OpenContainer)
  /-- The first item of an array, or its end. -/
  | firstItem (containers : List OpenContainer)
  /-- A comma or the end of an array. -/
  | afterItem (items : List Json) (containers : List OpenContainer)
  /-- A key or, if there is no member before it, the end of an object. -/
  | key (members : List (String × Json)) (first : Bool) (containers : List OpenContainer)
  | colon (members : List (String × Json)) (key : String) (containers : List OpenContainer)
  /-- A comma or the end of an object. -/
  | afterMember (members : List (String × Json)) (containers : List OpenContainer)
  | finished (document : Json)
  deriving Repr

namespace Reader

/-- The greatest depth to which containers nest. -/
def maxDepth : Nat := 127

/-- Hands a value to the innermost open container. -/
def accept (json : Json) : List OpenContainer → Reader
  | [] => finished json
  | .array items :: containers => afterItem (json :: items) containers
  | .object members name :: containers => afterMember (Json.assign name json members) containers

/-- Starts a value. -/
def start (containers : List OpenContainer) : Token → Option Reader
  | .null => some (accept .null containers)
  | .bool b => some (accept (.bool b) containers)
  | .number n => some (accept (.number n) containers)
  | .string text => some (accept (.string text) containers)
  | .openArray => if containers.length < maxDepth then some (firstItem containers) else none
  | .openObject => if containers.length < maxDepth then some (key [] true containers) else none
  | _ => none

/-- Takes one token. -/
def step : Reader → Token → Option Reader
  | value containers, token => start containers token
  | firstItem containers, .closeArray => some (accept (.array []) containers)
  | firstItem containers, token => start (.array [] :: containers) token
  | afterItem items containers, .comma => some (value (.array items :: containers))
  | afterItem items containers, .closeArray => some (accept (.array items.reverse) containers)
  | key members _ containers, .string name => some (colon members name containers)
  | key members true containers, .closeObject => some (accept (.object members) containers)
  | colon members name containers, .colon => some (value (.object members name :: containers))
  | afterMember members containers, .comma => some (key members false containers)
  | afterMember members containers, .closeObject => some (accept (.object members) containers)
  | _, _ => none

end Reader

/-- The document of a text. -/
def Json.read? (text : String) : Option Json := do
  let tokens ← Token.ofChars? text.toList
  match ← tokens.foldlM Reader.step (.value []) with
  | .finished document => return document
  | _ => none

end FlatTree
