import FlatTree.Document.Basic

/-!
# The census of a document

Before a document is laid out its arguments are counted, nesting layer by nesting layer, and so are
its expressions. Layer 0 is the slot of the root; the arguments of an expression on one layer are on
the next.

- `Census`: the counts.
- `Document.census`: the counts of a document.
- `Census.cursors`: where the arguments below each layer start.
-/

namespace FlatTree

/-- The sum of counts. -/
def total : List Nat → Nat
  | [] => 0
  | count :: rest => count + total rest

/-- Argument slots on each layer, and expressions. -/
structure Census where
  layers : List Nat
  expressions : Nat
  deriving DecidableEq, Repr

/-- Adds slots to a layer, which may be a new one. -/
def bumpLayer : (layer slots : Nat) → List Nat → List Nat
  | 0, slots, [] => [slots]
  | 0, slots, count :: rest => (count + slots) :: rest
  | layer + 1, slots, [] => 0 :: bumpLayer layer slots []
  | layer + 1, slots, count :: rest => count :: bumpLayer layer slots rest

namespace Census

/-- Nothing counted. -/
def empty : Census := ⟨[], 0⟩

/-- Counts slots on a layer. -/
def bump (layer slots : Nat) (c : Census) : Census :=
  { c with layers := bumpLayer layer slots c.layers }

/-- Counts expressions. -/
def addExpressions (n : Nat) (c : Census) : Census := { c with expressions := c.expressions + n }

/-- All slots. -/
def slots (c : Census) : Nat := total c.layers

/-- For each layer the slot after its last one, when the layers stand one after another. That is
where the arguments of the expressions on the layer start. -/
def cursors (c : Census) : List Nat :=
  (List.range c.layers.length).map fun layer => total (c.layers.take (layer + 1))

end Census

namespace Document

mutual

/-- Counts a document whose slot is on `layer`. -/
def count (layer : Nat) : Document → Census → Census
  | object members, c => countMembers layer members ((c.bump layer 1).addExpressions 1)
  | list items, c => countItems (layer + 1) items ((c.bump layer 1).addExpressions 1)
  | table columns, c =>
    let c := (c.bump layer 1).addExpressions (1 + columns.length)
    (c.bump (layer + 1) columns.length).bump (layer + 2)
      (total (columns.map fun column => column.cells.length))
  | _, c => c.bump layer 1

/-- Counts items whose slots are on `layer`. -/
def countItems (layer : Nat) : List Document → Census → Census
  | [], c => c
  | item :: rest, c => countItems layer rest (count layer item c)

/-- Counts the members of an object on `layer`: an expression each on the next layer, whose argument
is on the one after. -/
def countMembers (layer : Nat) : List (String × Document) → Census → Census
  | [], c => c
  | (_, value) :: rest, c =>
    countMembers layer rest (count (layer + 2) value ((c.bump (layer + 1) 1).addExpressions 1))

end

/-- The census of a document. -/
def census (document : Document) : Census := count 0 document .empty

end Document

end FlatTree
