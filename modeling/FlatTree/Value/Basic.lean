import FlatTree.Buffer.Slot
import FlatTree.Value.Entries
import FlatTree.Number.Binary64

/-!
# Values

The decoded tree. Expressions whose head names a container become maps and lists; every other
expression stays a head with its arguments.

- `Shape.ofHead`: the container that a head names.
- `Value`: a node of the decoded tree.
- `Value.kind`, `Value.toFloat?`, `Value.text?`, `Value.items?`, `Value.get?`: partial readings.
- `Value.agrees`: equality in which doubles compare as numbers, so that NaN differs from itself and
  the two zeros are equal.
-/

namespace FlatTree

/-- The containers that a head can name. -/
inductive Shape where
  | object
  | list
  | table
  | generic
  deriving DecidableEq, Repr

namespace Shape

/-- The shape of an expression with this head. -/
def ofHead (head : String) : Shape :=
  if head = "Object" then object
  else if head = "List" then list
  else if head = "Table" then table
  else generic

/-- The head reserved for a container. -/
def head? : Shape → Option String
  | object => some "Object"
  | list => some "List"
  | table => some "Table"
  | generic => none

/-- The name of a shape. -/
def name : Shape → String
  | object => "Object"
  | list => "List"
  | table => "Table"
  | generic => "Generic"

end Shape

/-- A node of the decoded tree. -/
inductive Value where
  | scalar (value : Scalar)
  | object (entries : List (String × Value))
  | list (items : List Value)
  /-- Column names with their values, usually lists. -/
  | table (columns : List (String × Value))
  | expression (head : String) (arguments : List Value)
  deriving Repr

/-- The number that a scalar stands for: a long is the nearest binary64 number. -/
def Scalar.toFloat? : Scalar → Option Float
  | long word => some word.toFloat
  | double bits => some (Float.ofBits bits)
  | _ => none

/-- Equality of scalars in which doubles compare as numbers. -/
def Scalar.agrees : Scalar → Scalar → Bool
  | double a, double b => Binary64.equal a b
  | a, b => a == b

namespace Value

/-- The name of the kind of a value. -/
def kind : Value → String
  | scalar value => value.type.name
  | object _ => "Object"
  | list _ => "List"
  | table _ => "Table"
  | expression _ _ => "Expression"

/-- The number that a long or a double stands for. -/
def toFloat? : Value → Option Float
  | scalar value => value.toFloat?
  | _ => none

/-- The text of a string. -/
def text? : Value → Option String
  | scalar (.string text) => some text
  | _ => none

/-- The name of a symbol. -/
def symbol? : Value → Option String
  | scalar (.symbol name) => some name
  | _ => none

/-- The items of a list. -/
def items? : Value → Option (List Value)
  | list items => some items
  | _ => none

/-- The head and the arguments of a generic expression. -/
def expression? : Value → Option (String × List Value)
  | expression head arguments => some (head, arguments)
  | _ => none

/-- The value under a key of an object or a table. -/
def get? (key : String) : Value → Option Value
  | object entries => Entries.find? key entries
  | table columns => Entries.find? key columns
  | _ => none

/-- A value that comes from an expression, not from a scalar slot. -/
def isContainer : Value → Bool
  | scalar _ => false
  | _ => true

mutual

/-- Equality in which doubles compare as numbers. -/
def agrees : Value → Value → Bool
  | scalar a, scalar b => a.agrees b
  | object a, object b => agreesEntries a b
  | list a, list b => agreesItems a b
  | table a, table b => agreesEntries a b
  | expression h a, expression k b => h == k && agreesItems a b
  | _, _ => false

/-- `agrees`, item by item. -/
def agreesItems : List Value → List Value → Bool
  | [], [] => true
  | a :: as, b :: bs => agrees a b && agreesItems as bs
  | _, _ => false

/-- `agrees`, entry by entry, with equal keys. -/
def agreesEntries : List (String × Value) → List (String × Value) → Bool
  | [], [] => true
  | (j, a) :: as, (k, b) :: bs => j == k && (agrees a b && agreesEntries as bs)
  | _, _ => false

end

end Value

end FlatTree
