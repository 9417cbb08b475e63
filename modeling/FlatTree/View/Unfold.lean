import FlatTree.View.Basic
import FlatTree.Value.Tree

/-!
# Raw trees of views

A view is unfolded by draining its arguments and those of every expression below, without promoting
anything. A buffer with fewer levels than expressions has no cycle, so one level of nesting for
every expression of the buffer is enough for every view that has a finite tree.

- `View.drain`: the raw children of a view.
-/

namespace FlatTree

namespace View

/-- The raw trees of drained children, with `expand` for the expressions among them. -/
def drainItems (expand : Nat → Decoded Tree) : List (Decoded Slot) → Decoded (List Tree)
  | [] => return []
  | argument :: rest => do
    let tree ←
      match ← argument with
      | .scalar value => pure (.scalar value)
      | .expression index => expand index
    return tree :: (← drainItems expand rest)

/-- The raw tree of an expression, with so many levels of nesting left. -/
def unfold (r : Regions) : Nat → Nat → Decoded Tree
  | 0, _ => .error (.ofCause (.depthLimitExceeded r.exprCount))
  | levels + 1, index => do
    let v : View := ⟨r, index⟩
    return .node (← v.head) (← drainItems (unfold r levels) (v.arguments.toList r))

/-- The raw children of a view. -/
def drain (v : View) : Decoded (List Tree) :=
  drainItems (unfold v.regions v.regions.exprCount) (v.arguments.toList v.regions)

end View

end FlatTree
