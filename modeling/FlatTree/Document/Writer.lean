import FlatTree.Build.Raw
import FlatTree.Build.Runs
import FlatTree.Document.Census

/-!
# Laying out a document

A document is laid out layer by layer. The arguments on one nesting layer stand together, the layers
one after another; expressions are numbered in the order in which they start. The census fixes where
each layer starts, and a cursor for each layer says which slot of it is free. While the children of
an expression are written, the slots of its parent stay open: the parent goes on where it stopped.

Runs are found while writing. A stretch of equal scalar types ends at another type, at an expression
among the arguments, and where an expression starts or ends; if it is long enough by then, its first
tag becomes a run tag and the next one its length.

Every access is checked, so a document is laid out only if the census agrees with the writing.

- `Writer`: a buffer being laid out.
- `Writer.start`, `Writer.finish`, `Writer.scalar`: an expression starts or ends, or a scalar is
  added to it.
- `Document.layOut?`, `Document.toBytes?`: the whole buffer. Its root must be a container.
-/

namespace FlatTree

/-- An expression that takes arguments, with the number of those it has. -/
structure OpenExpression where
  expression : Nat
  written : Nat
  deriving DecidableEq, Repr

/-- A buffer being laid out. -/
structure Writer where
  raw : RawBuffer
  /-- The free slot below each layer. -/
  cursors : Array Nat
  /-- The expression that takes the next argument. -/
  current : OpenExpression
  /-- The expressions around it, innermost first. -/
  outer : List OpenExpression
  nextExpression : Nat
  layer : Nat
  /-- The length of the stretch of equal scalar types that ends here. -/
  run : Nat

namespace Writer

/-- A buffer of the size that a census says, with nothing in it. The slot of the root counts as the
first argument of expression 0, which does not start before it. -/
def new (census : Census) : Writer where
  raw := {
    args := Array.replicate census.slots 0
    tags := Array.replicate census.slots 0
    exprs := Array.replicate census.expressions ⟨0, 0, 0⟩
    strings := .empty }
  cursors := census.cursors.toArray
  current := ⟨0, 0⟩
  outer := []
  nextExpression := 0
  layer := 0
  run := 0

/-- The next free slot of the current expression, which is taken. -/
def takeSlot (w : Writer) : Option (Nat × Writer) := do
  let record ← w.raw.exprs[w.current.expression]?
  return (record.start.toNat + w.current.written,
    { w with current := { w.current with written := w.current.written + 1 } })

/-- Fills a slot and its tag. -/
def fill (w : Writer) (slot : Nat) (word tag : UInt64) : Option Writer :=
  if slot < w.raw.args.size ∧ slot < w.raw.tags.size then
    some { w with raw := { w.raw with
      args := w.raw.args.setIfInBounds slot word
      tags := w.raw.tags.setIfInBounds slot tag } }
  else none

/-- Ends the stretch of equal types just before `stop`. -/
def closeRun (w : Writer) (stop : Nat) : Option Writer :=
  if w.run < RunPolicy.documentMinimum then some { w with run := 0 }
  else if w.run ≤ stop then do
    let first := stop - w.run
    let tag ← w.raw.tags[first]?
    if first + 1 < w.raw.tags.size then
      let tags := w.raw.tags.setIfInBounds first (tag ||| Tag.runBit)
      let tags := tags.setIfInBounds (first + 1) w.run.toUInt64
      return { w with raw := { w.raw with tags }, run := 0 }
    else none
  else none

/-- Adds a scalar to the current expression. -/
def scalar (w : Writer) (value : Scalar) : Option Writer := do
  let (raw, word) := w.raw.pushScalar value
  let (slot, w) ← takeSlot { w with raw }
  let w ← w.fill slot word value.type.code
  if w.run = 0 then return { w with run := 1 }
  let before ← match slot with
    | 0 => none
    | previous + 1 => w.raw.tags[previous]?
  let w ← if before = value.type.code then some w else w.closeRun slot
  return { w with run := w.run + 1 }

/-- Starts an expression as the next argument of the current one. -/
def start (w : Writer) (head : String) : Option Writer := do
  let expression := w.nextExpression
  let (slot, w) ← w.takeSlot
  let w ← w.fill slot expression.toUInt64 SlotType.expression.code
  let w ← w.closeRun slot
  let cursor ← w.cursors[w.layer]?
  if expression < w.raw.exprs.size then
    let record : Record := ⟨w.raw.nextText, cursor.toUInt64, 0⟩
    let raw := w.raw.pushText head
    return { w with
      raw := { raw with exprs := raw.exprs.setIfInBounds expression record }
      current := ⟨expression, 0⟩
      outer := w.current :: w.outer
      nextExpression := expression + 1
      layer := w.layer + 1 }
  else none

/-- Ends the current expression. -/
def finish (w : Writer) : Option Writer := do
  let ⟨expression, written⟩ := w.current
  let record ← w.raw.exprs[expression]?
  let stop := record.start.toNat + written
  let exprs := w.raw.exprs.setIfInBounds expression { record with stop := stop.toUInt64 }
  let w ← closeRun { w with raw := { w.raw with exprs } } stop
  let (current, outer) := match w.outer with
    | [] => (w.current, [])
    | outer :: rest => (outer, rest)
  match w.layer with
  | 0 => none
  | layer + 1 =>
    if layer < w.cursors.size then
      return { w with current, outer, layer, cursors := w.cursors.setIfInBounds layer stop }
    else none

mutual

/-- Writes a tree as the next argument of the current expression. -/
def writeTree : Tree → Writer → Option Writer
  | .scalar value, w => w.scalar value
  | .node head children, w => do (← writeTrees children (← w.start head)).finish

/-- Writes trees, one after another. -/
def writeTrees : List Tree → Writer → Option Writer
  | [], w => some w
  | tree :: rest, w => do writeTrees rest (← writeTree tree w)

end

end Writer

namespace Document

/-- The regions of the buffer of a document. -/
def layOut? (document : Document) : Option RawBuffer :=
  ((Writer.new document.census).writeTree document.tree).map Writer.raw

/-- The first free header word of a published document: an address at which it was mapped. -/
def mappingBase : UInt64 := 0x7F3A00000000

/-- The buffer of a document. The second free header word is the size of the heap. -/
def toBytes? (document : Document) : Option ByteArray :=
  document.layOut?.map fun raw => raw.toBytesWith (mappingBase, raw.strings.size.toUInt64)

end Document

end FlatTree
