import FlatTree.Proofs.Buffer.Layout
import FlatTree.Proofs.View.Lookup
import FlatTree.Proofs.View.Unfold

/-!
# Paths through a view

A view is walked step by step: to a child by its number, from there into an
expression, or to an entry by its key or its name. Every step sets up a cursor of
its own, and decodes no more than it needs. Where a view unfolds to a raw tree,
the same steps can be taken in that tree, and they lead to the same places.

- `Step`, `Path`: steps, and sequences of them that fit together.
- `Path.follow`, `Path.followRaw`: where a path leads from a view, and in a tree.
- `View.UnfoldsTo`: a view has a head, and is drained to raw children.
- `Step.follows`, `Path.follows_of_drain`: the path of the view follows that of its tree.
-/

namespace FlatTree

/-- What a path may have come to: an expression, or an argument that may as well be
a scalar. -/
inductive Standpoint where
  | view
  | item

/-- What is held of it. -/
def Standpoint.Handle : Standpoint → Type
  | view => View
  | item => Item

/-- A step. An argument has to be an expression for a path to go on from it. -/
inductive Step : Standpoint → Standpoint → Type where
  | child (n : Nat) : Step .view .item
  | toView : Step .item .view
  | lookup (key : String) : Step .view .view
  | column (name : String) : Step .view .view

/-- A sequence of steps, each of which starts where the one before ends. -/
inductive Path : Standpoint → Standpoint → Type where
  | nil {k : Standpoint} : Path k k
  | cons {k l m : Standpoint} : Step k l → Path l m → Path k m

/-! ## Taking steps -/

/-- What a step finds in a buffer. -/
def Step.take : {k l : Standpoint} → Step k l → k.Handle → Decoded l.Handle
  | _, _, child n, v => View.child v n
  | _, _, toView, argument => Item.toView argument
  | _, _, lookup key, v => View.lookup v key
  | _, _, column name, v => View.column v name

/-- What a step finds in a raw tree, or why it finds nothing. -/
def Step.takeRaw : {k l : Standpoint} → Step k l → Tree → Except Cause Tree
  | _, _, child n, tree =>
    (Cause.indexOutOfRange n tree.arguments.length).orElse tree.arguments[n]?
  | _, _, toView, tree => tree.toExpression
  | _, _, lookup key, tree => (Cause.keyNotFound key).orElse (tree.lookup key)
  | _, _, column name, tree => (Cause.keyNotFound name).orElse (tree.column? name)

/-- Where a path leads in a buffer. -/
def Path.follow : {k l : Standpoint} → Path k l → k.Handle → Decoded l.Handle
  | _, _, nil, handle => .ok handle
  | _, _, cons step rest, handle => do rest.follow (← step.take handle)

/-- Where a path leads in a raw tree. -/
def Path.followRaw : {k l : Standpoint} → Path k l → Tree → Except Cause Tree
  | _, _, nil, tree => .ok tree
  | _, _, cons step rest, tree => do rest.followRaw (← step.takeRaw tree)

/-! ## What is held unfolds -/

/-- A view unfolds to an expression: its head is readable, and draining it ends with
raw children. -/
def View.UnfoldsTo (v : View) (tree : Tree) : Prop :=
  ∃ head children, tree = .node head children ∧ v.head = .ok head ∧ v.drain = .ok children

/-- A scalar is a raw tree itself. -/
def Standpoint.UnfoldsTo : (k : Standpoint) → k.Handle → Tree → Prop
  | view, v, tree => View.UnfoldsTo v tree
  | item, .scalar value, tree => tree = .scalar value
  | item, .view v, tree => v.UnfoldsTo tree

namespace View

variable {v : View} {tree : Tree}

theorem shows_iff_unfoldsTo : v.Shows tree ↔ v.UnfoldsTo tree := by
  constructor
  · intro h
    obtain ⟨head, _, children, rfl, -⟩ := Unfolds.exists_node h
    exact ⟨head, children, rfl, unfolds_iff_drain.mp h⟩
  · rintro ⟨head, children, rfl, hread⟩
    exact unfolds_iff_drain.mpr hread

end View

theorem Item.Shows.unfoldsTo {item : Item} {tree : Tree} (h : item.Shows tree) :
    Standpoint.item.UnfoldsTo item tree := by
  cases item with
  | scalar value => exact h
  | view v => exact View.shows_iff_unfoldsTo.mp h

theorem Standpoint.UnfoldsTo.shows {item : Item} {tree : Tree}
    (h : Standpoint.item.UnfoldsTo item tree) : item.Shows tree := by
  cases item with
  | scalar value => exact h
  | view v => exact View.shows_iff_unfoldsTo.mpr h

/-! ## Paths -/

/-- A step from what unfolds finds what the step in the tree finds, and that unfolds
again; or both fail for one cause. -/
theorem Step.follows {k l : Standpoint} (step : Step k l) {handle : k.Handle} {tree : Tree}
    (h : k.UnfoldsTo handle tree) :
    Follows l.UnfoldsTo (step.take handle) (step.takeRaw tree) := by
  cases step with
  | child n =>
    exact ((View.shows_iff_unfoldsTo.mpr h).follows_child n).mono Item.Shows.unfoldsTo
  | toView =>
    exact (h.shows.follows_toView).mono View.shows_iff_unfoldsTo.mp
  | lookup key =>
    exact ((View.shows_iff_unfoldsTo.mpr h).follows_lookup key).mono View.shows_iff_unfoldsTo.mp
  | column name =>
    exact ((View.shows_iff_unfoldsTo.mpr h).follows_column name).mono View.shows_iff_unfoldsTo.mp

theorem Path.follows_of_unfoldsTo {k l : Standpoint} (path : Path k l) :
    ∀ {handle : k.Handle} {tree : Tree}, k.UnfoldsTo handle tree →
      Follows l.UnfoldsTo (path.follow handle) (path.followRaw tree) := by
  induction path with
  | nil => exact fun h => .ok h
  | cons step rest ih => exact fun h => (step.follows h).bind ih

/-- **Navigation goes as in the raw tree.** From a view with a head and raw children,
a path of any length leads to what it leads to in the tree, which unfolds to the
part that is reached there; or it fails where the path in the tree fails, and for
the same cause. -/
theorem Path.follows_of_drain {v : View} {head : String} {children : List Tree}
    (hhead : v.head = .ok head) (hdrain : v.drain = .ok children) {l : Standpoint} (path : Path .view l) :
    Follows l.UnfoldsTo (path.follow v) (path.followRaw (.node head children)) :=
  path.follows_of_unfoldsTo ⟨head, children, rfl, hhead, hdrain⟩

/-- A table of two columns: one by name, and one of two cells of which the first is a
symbol. -/
def twoColumns : RawBuffer where
  args := #[1, 2, 20, 3, 22, 5, 1, 2]
  tags := #[0x85, 2, 4, 5, 4, 1, 0x81, 2]
  exprs := #[⟨0, 0, 2⟩, ⟨6, 2, 4⟩, ⟨13, 4, 6⟩, ⟨15, 6, 8⟩]
  strings := ["Table", "Column", "b", "List", "a", "x"].foldl
    (fun heap text => heap ++ RawBuffer.textEntry text) .empty

/-- The second value of the named column is found, and the other column has no third
cell. -/
theorem Path.follows_twoColumns :
    ∃ children, (View.mk twoColumns.regions 0).head = .ok "Table" ∧
      (View.mk twoColumns.regions 0).drain = .ok children ∧
      (Follows Standpoint.item.UnfoldsTo
        (Path.follow (.cons (.column "a") (.cons (.child 1) .nil)) ⟨twoColumns.regions, 0⟩)
        (.ok (.scalar (.long 2)))) ∧
      (Follows Standpoint.item.UnfoldsTo
        (Path.follow (.cons (.column "b") (.cons (.child 2) .nil)) ⟨twoColumns.regions, 0⟩)
        (.error (.indexOutOfRange 2 2))) := by
  have hvalues : Unfolds twoColumns.regions 3
      (.node "List" [.scalar (.long 1), .scalar (.long 2)]) :=
    .node (by decide +kernel) (by decide +kernel) (.scalar (.scalar .nil))
  have hnamed : Unfolds twoColumns.regions 1 (.node "Column" [.scalar (.symbol "a"), _]) :=
    .node (by decide +kernel) (by decide +kernel) (.scalar (.expression hvalues .nil))
  have hcells : Unfolds twoColumns.regions 2
      (.node "b" [.scalar (.symbol "x"), .scalar (.long 5)]) :=
    .node (by decide +kernel) (by decide +kernel) (.scalar (.scalar .nil))
  have htable : Unfolds twoColumns.regions 0 (.node "Table" [_, _]) :=
    .node (by decide +kernel) (by decide +kernel)
      (.expression hnamed (.expression hcells .nil))
  obtain ⟨hhead, hdrain⟩ := @View.unfolds_iff_drain ⟨twoColumns.regions, 0⟩ _ _ |>.mp htable
  exact ⟨_, hhead, hdrain, Path.follows_of_drain hhead hdrain _,
    Path.follows_of_drain hhead hdrain _⟩

end FlatTree
