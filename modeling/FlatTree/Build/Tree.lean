import FlatTree.Build.Raw
import FlatTree.Build.Runs
import FlatTree.Value.Tree

/-!
# Laying out a tree

A tree is laid out breadth first. Slot 0 refers to expression 0, the root. The expressions are
numbered in breadth-first order, and in that order the children of each take the next slots. A
child that is an expression gets the next number; a text gets a heap entry of its own.

- `Tree.breadthFirst`: the expressions of a tree in that order.
- `Layout.addNode`: lays out one of them.
- `Tree.layOut`, `Tree.toBytes`: the whole buffer.
-/

namespace FlatTree

/-- An expression to lay out: its head and children. -/
structure HeadedNode where
  head : String
  children : List Tree
  deriving Repr

namespace Tree

mutual

/-- Number of scalars and expressions in a tree. -/
def size : Tree → Nat
  | scalar _ => 1
  | node _ children => 1 + sizes children

/-- Number of scalars and expressions in trees. -/
def sizes : List Tree → Nat
  | [] => 0
  | child :: rest => size child + sizes rest

end

/-- The expressions among trees. -/
def headedNodes : List Tree → List HeadedNode
  | [] => []
  | scalar _ :: rest => headedNodes rest
  | node head children :: rest => ⟨head, children⟩ :: headedNodes rest

/-- Number of scalars and expressions in and under nodes. -/
def pendingSize : List HeadedNode → Nat
  | [] => 0
  | first :: rest => 1 + sizes first.children + pendingSize rest

theorem pendingSize_append (before after : List HeadedNode) :
    pendingSize (before ++ after) = pendingSize before + pendingSize after := by
  induction before with
  | nil => exact (Nat.zero_add _).symm
  | cons node rest ih =>
    simp only [List.cons_append, pendingSize, ih]
    omega

theorem pendingSize_headedNodes_le (trees : List Tree) :
    pendingSize (headedNodes trees) ≤ sizes trees := by
  induction trees with
  | nil => exact Nat.le_refl _
  | cons tree rest ih =>
    cases tree with
    | scalar value =>
      simp only [headedNodes, sizes]
      omega
    | node head children =>
      simp only [headedNodes, sizes, size, pendingSize]
      omega

/-- Pending expressions in breadth-first order: the children of each go to the end of the queue. -/
def breadthFirst : List HeadedNode → List HeadedNode
  | [] => []
  | first :: queue => first :: breadthFirst (queue ++ headedNodes first.children)
termination_by nodes => pendingSize nodes
decreasing_by
  have := pendingSize_headedNodes_le first.children
  rw [pendingSize_append, pendingSize]
  omega

end Tree

/-- A buffer being laid out. -/
structure Layout where
  raw : RawBuffer
  /-- The number of the next child that is an expression. -/
  nextExpression : Nat

namespace Layout

/-- Only slot 0, which refers to the root. -/
def initial : Layout :=
  ⟨{ RawBuffer.empty with args := #[0], tags := #[SlotType.expression.code] }, 1⟩

/-- Adds the value word of a child. -/
def pushArg (l : Layout) (word : UInt64) : Layout :=
  { l with raw := { l.raw with args := l.raw.args.push word } }

/-- Lays out a child in the next slot, without its tag. -/
def addChild (l : Layout) : Tree → Layout
  | .scalar value =>
    let (raw, word) := l.raw.pushScalar value
    pushArg { l with raw } word
  | .node _ _ => { l.pushArg l.nextExpression.toUInt64 with
      nextExpression := l.nextExpression + 1 }

/-- Lays out the next expression: its head, its children, their tags and its record. -/
def addNode (policy : RunPolicy) (l : Layout) (node : HeadedNode) : Layout :=
  let head := l.raw.nextText
  let start := l.raw.args.size
  let l := node.children.foldl addChild { l with raw := l.raw.pushText node.head }
  let tags := policy.compress (node.children.map fun child => child.type.code)
  { l with
    raw := { l.raw with
      tags := l.raw.tags ++ tags.toArray
      exprs := l.raw.exprs.push ⟨head, start.toUInt64, l.raw.args.size.toUInt64⟩ } }

end Layout

namespace Tree

/-- The regions of the buffer of a tree, which must be an expression. -/
def layOut (policy : RunPolicy) (tree : Tree) : RawBuffer :=
  ((breadthFirst (headedNodes [tree])).foldl (Layout.addNode policy) Layout.initial).raw

/-- The buffer of a tree, which must be an expression. -/
def toBytes (policy : RunPolicy) (tree : Tree) : ByteArray := (tree.layOut policy).toBytes

end Tree

end FlatTree
