import FlatTree.View.Cursor

/-!
# Views

A view is a handle on one expression of a buffer, decoded on demand. A view keeps the raw shape: an
object is an expression whose children are headed by the keys. Nothing is decoded until asked for,
and a nested expression becomes another view instead of a subtree.

- `View.root`, `View.ofIndex`: views of expressions that exist.
- `View.head`, `shape`, `arity`, `arguments`, `typedArguments`: the expression itself.
- `View.child`, `lookup`, `field`, `column`: steps to a child.
-/

namespace FlatTree

/-- A handle on an expression of a buffer. -/
structure View where
  regions : Regions
  index : Nat

/-- What a step to a child finds: a scalar, or a view of a nested expression. -/
inductive Item where
  | scalar (value : Scalar)
  | view (view : View)

namespace Item

/-- The type of the slot that holds the item. -/
def type : Item → SlotType
  | scalar value => value.type
  | view _ => .expression

/-- The number that a long or a double stands for. -/
def toFloat? : Item → Option Float
  | scalar value => value.toFloat?
  | view _ => none

/-- The nested expression; a scalar is of the wrong type. -/
def toView : Item → Decoded View
  | view v => .ok v
  | scalar value =>
    .error (.ofCause (.typeMismatch SlotType.expression.name value.type.name))

end Item

namespace View

/-- The view of an expression, which must exist. -/
def ofIndex (r : Regions) (index : Nat) : Decoded View := do
  let _ ← Decoded.lift (r.expression index)
  return ⟨r, index⟩

/-- The view of expression 0 of a buffer. -/
def root (bytes : ByteArray) : Decoded View := do
  let r ← Decoded.lift (Regions.parse bytes)
  ofIndex r 0

variable (v : View)

/-- The head of the expression. -/
def head : Decoded String :=
  Decoded.blaming v.index (headOf v.regions v.index)

/-- The container that the head names. -/
def shape : Decoded Shape :=
  return Shape.ofHead (← v.head)

/-- Number of child slots; a run counts slot by slot. -/
def arity : Decoded Nat :=
  Decoded.blaming v.index do
    let range ← Decoded.lift (v.regions.children v.index)
    return range.size

/-- The cursor over all children. -/
def arguments : Cursor := Cursor.start v.regions v.index none

/-- The cursor over the children of one type. -/
def typedArguments (type : SlotType) : Cursor := Cursor.start v.regions v.index (some type)

/-- What a slot of this buffer holds, as an item. -/
def item : Slot → Item
  | .scalar value => .scalar value
  | .expression index => .view ⟨v.regions, index⟩

/-! ## Steps to a child -/

/-- The child `n` places after a cursor, where `passed` children lie before the cursor. Every child
on the way is decoded, so the step fails exactly where a traversal would. -/
def nth (c : Cursor) (passed : Nat) : Nat → Decoded Slot
  | 0 =>
    match c.next v.regions with
    | some (slot, _) => slot
    | none => .error (.ofCause (.indexOutOfRange passed passed))
  | n + 1 =>
    match c.next v.regions with
    | some (.ok _, rest) => nth rest (passed + 1) n
    | some (.error e, _) => .error e
    | none => .error (.ofCause (.indexOutOfRange (passed + n + 1) passed))

/-- The `n`-th child, counted from zero. -/
def child (n : Nat) : Decoded Item :=
  return v.item (← v.nth v.arguments 0 n)

/-- The first child expression headed `key` that a cursor meets. -/
def lookupFrom (key : String) : List (Decoded Slot) → Decoded View
  | [] => .error (.ofCause (.keyNotFound key))
  | argument :: rest => do
    match ← argument with
    | .scalar _ => lookupFrom key rest
    | .expression index =>
      let child : View := ⟨v.regions, index⟩
      if (← child.head) = key then return child
      lookupFrom key rest

/-- The first child expression headed `key`. Of an object this is the entry of the key; of a list
it is the first item of a shape. -/
def lookup (key : String) : Decoded View :=
  v.lookupFrom key ((v.typedArguments .expression).toList v.regions)

/-- The value under `key` of an object. -/
def field (key : String) : Decoded Item := do
  let entry ← v.lookup key
  entry.child 0

/-- The name and the values of a named column: exactly a symbol and a nested expression. -/
def namedColumn : Decoded (Option (String × View)) := do
  if (← v.arity) ≠ 2 then
    return none
  let some (first, rest) := v.arguments.next v.regions | return none
  let first ← first
  let some (second, _) := rest.next v.regions | return none
  match first, ← second with
  | .scalar (.symbol name), .expression index => return some (name, ⟨v.regions, index⟩)
  | _, _ => return none

/-- The first column called `name` that a cursor meets. -/
def columnFrom (name : String) : List (Decoded Slot) → Decoded View
  | [] => .error (.ofCause (.keyNotFound name))
  | argument :: rest => do
    match ← argument with
    | .scalar _ => columnFrom name rest
    | .expression index =>
      let entry : View := ⟨v.regions, index⟩
      match ← entry.namedColumn with
      | some (key, values) =>
        if key = name then return values
        columnFrom name rest
      | none =>
        if (← entry.head) = name then return entry
        columnFrom name rest

/-- The expression whose arguments are the cells of a column of a table. A named column is found by
its symbol and yields its values; a column written cell by cell is found by its head and yields
itself. The first column of that name wins. -/
def column (name : String) : Decoded View :=
  v.columnFrom name ((v.typedArguments .expression).toList v.regions)

end View

end FlatTree
