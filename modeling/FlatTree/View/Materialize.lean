import FlatTree.View.Basic
import FlatTree.Decode.Eager

/-!
# Decoding a view to a value

A view is materialized by draining cursors, with the expressions that are still open on an explicit
stack. A step either consumes a child of the top expression, which may open that child on top of
it, or closes the top expression and folds it into the one below.

- `Frame`: an open expression, with what has been decoded of it so far.
- `Stack.step`: one step, and `Stack.StepsTo`: all that a step can do.
- `Stack.weight`: a measure that every step lowers, so the loop ends on every buffer, also on cyclic
  ones: a child may only be opened down to the nesting limit, and weighs less than the slot that
  refers to it.
- `View.materialize`: the value of a view.
-/

namespace FlatTree

/-- What has been decoded of an open expression. -/
inductive Partial where
  | list (items : Array Value)
  | generic (head : String) (arguments : Array Value)
  | object (entries : Entries Value)
  | table (columns : Entries Value)
  /-- An entry of an object or a table, kept raw until it is folded into it. -/
  | entry (head : String) (arguments : Array Value)
  deriving Repr

namespace Partial

/-- The start of an expression with this head that is no entry. -/
def ofHead (head : String) : Partial :=
  match Shape.ofHead head with
  | .list => list #[]
  | .object => object []
  | .table => table []
  | .generic => generic head #[]

/-- The children of objects and tables are entries. -/
def takesEntries : Partial → Bool
  | object _ => true
  | table _ => true
  | _ => false

/-- The value of a finished expression. -/
def toValue : Partial → Value
  | list items => .list items.toList
  | generic head arguments => .expression head arguments.toList
  | object entries => .object entries
  | table columns => .table columns
  | entry head arguments => .expression head arguments.toList

end Partial

/-- An open expression. -/
structure Frame where
  index : Nat
  /-- How many expressions are open below it. -/
  depth : Nat
  cursor : Cursor
  node : Partial
  deriving Repr

namespace Frame

variable (r : Regions)

/-- Opens an expression, raw if it is an entry. -/
def start (index depth : Nat) (isEntry : Bool) : Decoded Frame :=
  Decoded.blaming index do
    if defaultMaxDepth < depth then
      throw (.ofCause (.depthLimitExceeded defaultMaxDepth))
    let head ← Decoded.blaming index (headOf r index)
    let node := if isEntry then .entry head #[] else Partial.ofHead head
    return { index, depth, cursor := Cursor.start r index none, node }

/-- The failure of a child that is no entry. -/
def notAnEntry (f : Frame) : DecodeError :=
  match f.node with
  | .table _ => .ofCause (.malformedShape .table f.index .notAnExpression)
  | _ => .ofCause (.malformedShape .object f.index .notAnExpression)

/-- Adds a scalar child. -/
def pushScalar (f : Frame) (value : Scalar) : Decoded Frame :=
  match f.node with
  | .list items => .ok { f with node := .list (items.push (.scalar value)) }
  | .generic head arguments =>
    .ok { f with node := .generic head (arguments.push (.scalar value)) }
  | .entry head arguments => .ok { f with node := .entry head (arguments.push (.scalar value)) }
  | .object _ => .error f.notAnEntry
  | .table _ => .error f.notAnEntry

/-- Folds a finished child in. -/
def accept (f child : Frame) : Decoded Frame :=
  match f.node, child.node with
  | .list items, node => .ok { f with node := .list (items.push node.toValue) }
  | .generic head arguments, node =>
    .ok { f with node := .generic head (arguments.push node.toValue) }
  | .entry head arguments, node =>
    .ok { f with node := .entry head (arguments.push node.toValue) }
  | .object entries, .entry key arguments =>
    match objectEntry child.index arguments.toList with
    | .ok value => .ok { f with node := .object (Entries.insertFirst key value entries) }
    | .error e => .error e
  | .table columns, .entry head arguments =>
    let column := tableColumn head arguments.toList
    .ok { f with node := .table (Entries.insertFirst column.1 column.2 columns) }
  | .object _, _ => .error f.notAnEntry
  | .table _, _ => .error f.notAnEntry

end Frame

/-- The open expressions: the top one, and those below it, the nearest first. -/
structure Stack where
  top : Frame
  below : List Frame
  deriving Repr

/-- What a step leads to. -/
inductive Progress where
  | running (stack : Stack)
  | finished (outcome : Decoded Value)

namespace Stack

variable (r : Regions)

/-- Consumes a child of the top expression, or closes it. -/
def step (s : Stack) : Progress :=
  match s.top.cursor.next r with
  | some (.ok (.expression child), cursor) =>
    match Frame.start r child (s.top.depth + 1) s.top.node.takesEntries with
    | .ok frame => .running ⟨frame, { s.top with cursor } :: s.below⟩
    | .error e => .finished (.error e)
  | some (.ok (.scalar value), cursor) =>
    match Frame.pushScalar { s.top with cursor } value with
    | .ok top => .running ⟨top, s.below⟩
    | .error e => .finished (.error (e.blame s.top.index))
  | some (.error e, _) => .finished (.error (e.blame s.top.index))
  | none =>
    match s.below with
    | [] => .finished (.ok s.top.node.toValue)
    | parent :: rest =>
      match parent.accept s.top with
      | .ok parent => .running ⟨parent, rest⟩
      | .error e => .finished (.error (e.blame parent.index))

/-! ## The kinds of steps -/

/-- What a step leads to: a child is opened on top of the expression that holds it, or
added to it, or the expression on top is closed and folded into the one below; or the loop
finishes. -/
inductive StepsTo (s : Stack) : Progress → Prop where
  | opens {child : Nat} {cursor : Cursor} {frame : Frame} :
    s.top.cursor.next r = some (.ok (.expression child), cursor) →
    Frame.start r child (s.top.depth + 1) s.top.node.takesEntries = .ok frame →
    StepsTo s (.running ⟨frame, { s.top with cursor } :: s.below⟩)
  | unopened {child : Nat} {cursor : Cursor} {e : DecodeError} :
    s.top.cursor.next r = some (.ok (.expression child), cursor) →
    Frame.start r child (s.top.depth + 1) s.top.node.takesEntries = .error e →
    StepsTo s (.finished (.error e))
  | adds {value : Scalar} {cursor : Cursor} {top : Frame} :
    s.top.cursor.next r = some (.ok (.scalar value), cursor) →
    Frame.pushScalar { s.top with cursor } value = .ok top →
    StepsTo s (.running ⟨top, s.below⟩)
  | refuses {value : Scalar} {cursor : Cursor} {e : DecodeError} :
    s.top.cursor.next r = some (.ok (.scalar value), cursor) →
    Frame.pushScalar { s.top with cursor } value = .error e →
    StepsTo s (.finished (.error (e.blame s.top.index)))
  | breaks {cursor : Cursor} {e : DecodeError} :
    s.top.cursor.next r = some (.error e, cursor) →
    StepsTo s (.finished (.error (e.blame s.top.index)))
  | folds {parent parent' : Frame} {rest : List Frame} :
    s.top.cursor.next r = none → s.below = parent :: rest →
    parent.accept s.top = .ok parent' →
    StepsTo s (.running ⟨parent', rest⟩)
  | unfolded {parent : Frame} {rest : List Frame} {e : DecodeError} :
    s.top.cursor.next r = none → s.below = parent :: rest →
    parent.accept s.top = .error e →
    StepsTo s (.finished (.error (e.blame parent.index)))
  | ends :
    s.top.cursor.next r = none → s.below = [] →
    StepsTo s (.finished (.ok s.top.node.toValue))

theorem stepsTo_step (s : Stack) : StepsTo r s (s.step r) := by
  unfold step
  split
  · next hnext =>
    split
    · next hstart => exact .opens hnext hstart
    · next hstart => exact .unopened hnext hstart
  · next hnext =>
    split
    · next hpush => exact .adds hnext hpush
    · next hpush => exact .refuses hnext hpush
  · next hnext => exact .breaks hnext
  · next hnext =>
    split
    · next hbelow => exact .ends hnext hbelow
    · next hbelow =>
      split
      · next haccept => exact .folds hnext hbelow haccept
      · next haccept => exact .unfolded hnext hbelow haccept

/-! ## The loop ends -/

/-- The weight of one slot of an expression below which so many levels may open, more than all slots
of a child weigh. -/
def levelWeight : Nat → Nat
  | 0 => 1
  | levels + 1 => (r.argCount + 3) * levelWeight levels

/-- The weight of one slot of an expression at `depth`. -/
def slotWeight (depth : Nat) : Nat := levelWeight r (defaultMaxDepth + 1 - depth)

/-- What is left to do in an open expression. -/
def frameWeight (f : Frame) : Nat :=
  (f.cursor.remaining + 1) * slotWeight r f.depth

/-- What is left to do in open expressions. -/
def framesWeight : List Frame → Nat
  | [] => 0
  | f :: rest => frameWeight r f + framesWeight rest

/-- What is left to do. -/
def weight (s : Stack) : Nat := frameWeight r s.top + framesWeight r s.below

theorem levelWeight_pos (levels : Nat) : 0 < levelWeight r levels := by
  induction levels with
  | zero => exact Nat.one_pos
  | succ levels ih => exact Nat.mul_pos (Nat.succ_pos _) ih

theorem slotWeight_pos (depth : Nat) : 0 < slotWeight r depth := levelWeight_pos r _

theorem slotWeight_succ {depth : Nat} (h : depth + 1 ≤ defaultMaxDepth) :
    slotWeight r depth = (r.argCount + 3) * slotWeight r (depth + 1) := by
  unfold slotWeight
  rw [show defaultMaxDepth + 1 - depth = defaultMaxDepth + 1 - (depth + 1) + 1 by omega,
    levelWeight]

/-- An opened expression is within the limit, and its cursor is fresh. -/
theorem start_eq_ok {index depth : Nat} {isEntry : Bool} {f : Frame}
    (h : Frame.start r index depth isEntry = .ok f) :
    depth ≤ defaultMaxDepth ∧ f.depth = depth ∧ f.cursor = Cursor.start r index none := by
  unfold Frame.start Decoded.blaming at h
  split at h
  · next hbody =>
    cases h
    by_cases hdepth : defaultMaxDepth < depth
    · simp [hdepth, bind, Except.bind, throw, throwThe, MonadExceptOf.throw] at hbody
    · simp only [hdepth, if_false, bind, Except.bind, pure, Except.pure] at hbody
      split at hbody
      · cases hbody
      · cases hbody
        exact ⟨by omega, rfl, rfl⟩
  · cases h

/-- Adding a scalar leaves the traversal where it is. -/
theorem pushScalar_eq_ok {f f' : Frame} {value : Scalar} (h : f.pushScalar value = .ok f') :
    f'.depth = f.depth ∧ f'.cursor = f.cursor := by
  unfold Frame.pushScalar at h
  split at h <;> cases h <;> exact ⟨rfl, rfl⟩

/-- Folding a child in leaves the traversal where it is. -/
theorem accept_eq_ok {f f' child : Frame} (h : f.accept child = .ok f') :
    f'.depth = f.depth ∧ f'.cursor = f.cursor := by
  unfold Frame.accept at h
  split at h
  · cases h; exact ⟨rfl, rfl⟩
  · cases h; exact ⟨rfl, rfl⟩
  · cases h; exact ⟨rfl, rfl⟩
  · split at h
    · cases h; exact ⟨rfl, rfl⟩
    · cases h
  · cases h; exact ⟨rfl, rfl⟩
  · cases h
  · cases h

/-- Only where the traversal is decides what is left to do. -/
theorem frameWeight_congr {f f' : Frame} (hdepth : f'.depth = f.depth)
    (hcursor : f'.cursor = f.cursor) : frameWeight r f' = frameWeight r f := by
  rw [frameWeight, frameWeight, hdepth, hcursor]

/-- A child that is consumed takes the weight of its slot away. -/
theorem frameWeight_of_next {f : Frame} {item : Decoded Slot} {cursor : Cursor}
    (h : f.cursor.next r = some (item, cursor)) :
    frameWeight r { f with cursor } + slotWeight r f.depth ≤ frameWeight r f := by
  have hremaining := Cursor.remaining_lt_of_next r h
  show (cursor.remaining + 1) * slotWeight r f.depth + slotWeight r f.depth ≤ _
  rw [← Nat.succ_mul]
  exact Nat.mul_le_mul_right _ (by omega)

/-- An expression that is opened weighs less than a slot of the one above it. -/
theorem frameWeight_start_lt {child depth : Nat} {isEntry : Bool} {frame : Frame}
    (h : Frame.start r child (depth + 1) isEntry = .ok frame) :
    frameWeight r frame < slotWeight r depth := by
  obtain ⟨hdepth, hframeDepth, hcursor⟩ := start_eq_ok r h
  have hfresh := Cursor.remaining_start_le r child none
  rw [frameWeight, hframeDepth, hcursor, slotWeight_succ r hdepth]
  exact Nat.mul_lt_mul_of_pos_right (by omega) (slotWeight_pos r _)

section Steps

variable {s : Stack} {cursor : Cursor}

/-- Opening a child trades the weight of its slot for less. -/
theorem weight_opens_lt {child : Nat} {frame : Frame}
    (hnext : s.top.cursor.next r = some (.ok (.expression child), cursor))
    (hstart : Frame.start r child (s.top.depth + 1) s.top.node.takesEntries = .ok frame) :
    weight r ⟨frame, { s.top with cursor } :: s.below⟩ < weight r s := by
  have htop := frameWeight_of_next r hnext
  have hframe := frameWeight_start_lt r hstart
  simp only [weight, framesWeight]
  omega

/-- Adding a scalar takes the weight of its slot away. -/
theorem weight_adds_lt {value : Scalar} {top : Frame}
    (hnext : s.top.cursor.next r = some (.ok (.scalar value), cursor))
    (hpush : Frame.pushScalar { s.top with cursor } value = .ok top) :
    weight r ⟨top, s.below⟩ < weight r s := by
  obtain ⟨hdepth, hcursor⟩ := pushScalar_eq_ok hpush
  refine Nat.add_lt_add_right ?_ (framesWeight r s.below)
  calc frameWeight r top = frameWeight r { s.top with cursor } := frameWeight_congr r hdepth hcursor
    _ < frameWeight r { s.top with cursor } + slotWeight r s.top.depth :=
      Nat.lt_add_of_pos_right (slotWeight_pos r _)
    _ ≤ frameWeight r s.top := frameWeight_of_next r hnext

/-- Closing the top expression takes its weight away, and the one below keeps its own. -/
theorem weight_folds_lt {parent parent' : Frame} {rest : List Frame}
    (hbelow : s.below = parent :: rest) (haccept : parent.accept s.top = .ok parent') :
    weight r ⟨parent', rest⟩ < weight r s := by
  obtain ⟨hdepth, hcursor⟩ := accept_eq_ok haccept
  have hsame := frameWeight_congr r hdepth hcursor
  have htop : 0 < frameWeight r s.top := Nat.mul_pos (Nat.succ_pos _) (slotWeight_pos r _)
  simp only [weight, hbelow, framesWeight]
  omega

end Steps

/-- Every step leaves less to do. -/
theorem weight_lt_of_step {s s' : Stack} (h : s.step r = .running s') :
    s'.weight r < s.weight r := by
  have hsteps := stepsTo_step r s
  rw [h] at hsteps
  cases hsteps with
  | opens hnext hstart => exact weight_opens_lt r hnext hstart
  | adds hnext hpush => exact weight_adds_lt r hnext hpush
  | folds _ hbelow haccept => exact weight_folds_lt r hbelow haccept

/-- Steps until the last expression is closed or one fails. -/
def run (s : Stack) : Decoded Value :=
  match _h : s.step r with
  | .finished outcome => outcome
  | .running s' => run s'
termination_by s.weight r
decreasing_by exact weight_lt_of_step r _h

end Stack

/-- The value of the subtree under a view, with containers promoted as the eager decoder promotes
them. -/
def View.materialize (v : View) : Decoded Value := do
  let root ← Frame.start v.regions v.index 0 false
  Stack.run v.regions ⟨root, []⟩

/-- The value of an item; nested expressions are materialized. -/
def Item.toValue : Item → Decoded Value
  | .scalar value => .ok (.scalar value)
  | .view v => v.materialize

end FlatTree
