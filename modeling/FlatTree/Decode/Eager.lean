import FlatTree.Decode.Promotion

/-!
# Decoding a whole subtree

The eager decoder follows every expression that is reachable from the one it starts at, expands
runs, and promotes containers on the way. The entries of an object or a table are decoded raw: the
head of an entry is its key and is never itself promoted, so a key called `List` stays a key.

- `Eager.expression r limit levels index`: the value of an expression, with `levels` of nesting
  still allowed out of `limit`. Recursion is on `levels`, so a cycle of references ends.
- `Eager.decodeExpression`, `Eager.decodeBuffer`: with the whole limit left.
-/

namespace FlatTree

/-- The slots of a block. -/
def SlotRange.toList (range : SlotRange) : List Nat :=
  List.range' range.start range.size

namespace Eager

variable (r : Regions)

/-- Decodes slots of one type in order, with `child` for the expressions among them. -/
def slots (child : Nat → Decoded Value) (type : SlotType) : List Nat → Decoded (List Value)
  | [] => return []
  | slot :: rest => do
    let value ←
      match ← Decoded.lift (Slot.read r type slot) with
      | .scalar s => pure (.scalar s)
      | .expression index => child index
    return value :: (← slots child type rest)

/-- Decodes the slots of a walk in order. A fault of the walk counts only once the blocks before it
are decoded. -/
def blocks (child : Nat → Decoded Value) : List (Except Fault Block) → Decoded (List Value)
  | [] => return []
  | item :: rest => do
    let block ← Decoded.lift item
    let values ← slots r child block.type block.slots.toList
    return values ++ (← blocks child rest)

/-- Decodes the children of an expression. -/
def children (child : Nat → Decoded Value) (index : Nat) : Decoded (List Value) := do
  let range ← Decoded.lift (r.children index)
  blocks r child ((Blocks.ofRange range).toList r)

/-- The expressions that the slots of a walk refer to, all of which must be expressions. -/
def entryIndices (shape : Shape) (index : Nat) : List (Except Fault Block) → Decoded (List Nat)
  | [] => return []
  | item :: rest => do
    let block ← Decoded.lift item
    if block.type ≠ .expression then
      throw (.ofCause (.malformedShape shape index .notAnExpression))
    let words ← block.slots.toList.mapM fun slot => Decoded.lift (r.argWord slot)
    return words.map UInt64.toNat ++ (← entryIndices shape index rest)

/-- The expressions that an object or a table has as its entries. -/
def entries (shape : Shape) (index : Nat) : Decoded (List Nat) := do
  let range ← Decoded.lift (r.children index)
  entryIndices r shape index ((Blocks.ofRange range).toList r)

/-- Builds a map from entries decoded one by one, each as a key with its value. The first entry of
a key wins. -/
def collect (entry : Nat → Decoded (String × Value)) :
    List Nat → Entries Value → Decoded (Entries Value)
  | [], map => return map
  | index :: rest, map => do
    let (key, value) ← entry index
    collect entry rest (Entries.insertFirst key value map)

mutual

/-- The value of an expression, with `levels` of nesting left out of `limit`. -/
def expression (limit : Nat) : Nat → Nat → Decoded Value
  | 0, index => .error ⟨.depthLimitExceeded limit, some index⟩
  | levels + 1, index => Decoded.blaming index do
    let head ← headOf r index
    match Shape.ofHead head with
    | .list => return .list (← children r (expression limit levels) index)
    | .object =>
      let entry := fun child => do
        let (key, arguments) ← rawEntry limit levels child
        return (key, ← objectEntry child arguments)
      return .object (← collect entry (← entries r .object index) [])
    | .table =>
      let entry := fun child => do
        let (head, arguments) ← rawEntry limit levels child
        return tableColumn head arguments
      return .table (← collect entry (← entries r .table index) [])
    | .generic => return .expression head (← children r (expression limit levels) index)

/-- An entry of an object or a table: its head and its decoded arguments, without promotion. -/
def rawEntry (limit : Nat) : Nat → Nat → Decoded (String × List Value)
  | 0, index => .error ⟨.depthLimitExceeded limit, some index⟩
  | levels + 1, index => Decoded.blaming index do
    let head ← headOf r index
    return (head, ← children r (expression limit levels) index)

end

/-- The value of an expression under which at most `maxDepth` levels are nested. -/
def decodeExpression (maxDepth index : Nat) : Decoded Value :=
  expression r maxDepth (maxDepth + 1) index

/-- The value of the root, expression 0, of a buffer. -/
def decodeBuffer (maxDepth : Nat) (bytes : ByteArray) : Decoded Value := do
  let r ← Decoded.lift (Regions.parse bytes)
  decodeExpression r maxDepth 0

end Eager

end FlatTree
