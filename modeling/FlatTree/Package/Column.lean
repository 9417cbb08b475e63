import FlatTree.View.Materialize

/-!
# Sums over a column of a data package

A data package is an object whose `resources` are a list; the first object in it has a table under
`path`. The sum of a column of that table skips every cell that is no number. It can be taken from
a view or from a decoded value; both add the doubles first and then the longs, in cell order, so
that the rounded sums are identical.

- `Aggregate`: the sum and the count of the numeric cells.
- `Package.tableView`, `Package.sumView`: through a view, by lookups alone.
- `Package.tableValue`, `Package.sumValue`: in a decoded value.
-/

namespace FlatTree

/-- Sum and count of numbers. -/
structure Aggregate where
  sum : Float
  count : Nat
  deriving DecidableEq

namespace Aggregate

/-- No numbers. -/
def empty : Aggregate := ⟨0.0, 0⟩

/-- One more number. -/
def add (a : Aggregate) (x : Float) : Aggregate := ⟨a.sum + x, a.count + 1⟩

/-- Numbers added in order. -/
def addAll (a : Aggregate) (xs : List Float) : Aggregate := xs.foldl add a

/-- The mean, if there is a number. -/
def mean? (a : Aggregate) : Option Float :=
  if 0 < a.count then some (a.sum / a.count.toFloat) else none

end Aggregate

namespace Package

/-! ## Through a view -/

/-- The table of the first resource. -/
def tableView (root : View) : Decoded View := do
  let resources ← root.lookup "resources"
  let list ← (← resources.child 0).toView
  let resource ← list.lookup "Object"
  let path ← resource.lookup "path"
  path.lookup "Table"

/-- The numbers among drained arguments. -/
def numbers (items : List (Decoded Slot)) : Decoded (List Float) := do
  let slots ← items.mapM id
  return slots.filterMap fun
    | .scalar value => value.toFloat?
    | .expression _ => none

/-- The sum of a column of the first resource. Only blocks of doubles and longs are decoded. -/
def sumView (root : View) (column : String) : Decoded Aggregate := do
  let table ← tableView root
  let cells ← table.column column
  let doubles ← numbers ((cells.typedArguments .double).toList cells.regions)
  let longs ← numbers ((cells.typedArguments .long).toList cells.regions)
  return (Aggregate.empty.addAll doubles).addAll longs

/-! ## In a decoded value -/

/-- The value under a key that must be there. -/
def get (value : Value) (key : String) : Decoded Value :=
  match value.get? key with
  | some v => .ok v
  | none => .error (.ofCause (.keyNotFound key))

/-- The items of a value that must be a list. -/
def items (value : Value) : Decoded (List Value) :=
  match value.items? with
  | some vs => .ok vs
  | none => .error (.ofCause (.typeMismatch "List" value.kind))

/-- An object. -/
def isObject : Value → Bool
  | .object _ => true
  | _ => false

/-- The table of the first resource. -/
def tableValue (root : Value) : Decoded Value := do
  let resources ← items (← get root "resources")
  match resources.find? isObject with
  | none => .error (.ofCause (.keyNotFound "Object"))
  | some resource =>
    match ← get resource "path" with
    | .table columns => return .table columns
    | _ => .error (.ofCause (.keyNotFound "Table"))

/-- The number in a double. -/
def double? : Value → Option Float
  | .scalar (.double bits) => (Scalar.double bits).toFloat?
  | _ => none

/-- The number nearest to a long. -/
def long? : Value → Option Float
  | .scalar (.long word) => (Scalar.long word).toFloat?
  | _ => none

/-- The sum of a column of the first resource. -/
def sumValue (root : Value) (column : String) : Decoded Aggregate := do
  let table ← tableValue root
  let cells ← items (← get table column)
  return (Aggregate.empty.addAll (cells.filterMap double?)).addAll (cells.filterMap long?)

end Package

end FlatTree
