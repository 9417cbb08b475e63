import FlatTree.Proofs.Document.LayOut
import FlatTree.Proofs.Document.Steps

/-!
# Where a writer puts a tree

The writer puts the expressions of a tree where `place` says, from the free slots on
that it has when it comes to the tree, and fills all slots of their arguments on
the way, each of them in one step.

- `RawBuffer.Puts`: a part of a buffer holds an expression where it is placed.
- `Writer.Filled`: trees are put in their places, and no slot is filled twice.
- `Writer.writeTree_filled`: so it is wherever there is room for a tree.
-/

namespace FlatTree

/-- A part of a buffer holds a numbered expression where it is placed. -/
structure RawBuffer.Puts (raw : RawBuffer) (part : Part) (index : Nat) (node : PlacedNode) :
    Prop where
  stores : raw.Stores .document index node.head node.start
    (Tree.depthFirstSlots (index + 1) node.children)
  expression : part.expressions index
  slots : ∀ slot, node.start ≤ slot → slot < node.stop → part.slots slot

/-- An expression stays where it is as long as the part keeps what it holds. -/
theorem RawBuffer.Puts.of_keeps {raw next : RawBuffer} {part wider : Part} {index : Nat}
    {node : PlacedNode} (h : raw.Puts part index node) (hkeeps : raw.Keeps part next wider) :
    next.Puts wider index node := by
  obtain ⟨hwider, hrecord⟩ := hkeeps.expressions index h.expression
  refine ⟨h.stores.of_sameAt RunPolicy.valid_document hkeeps.strings hkeeps.size hrecord ?_,
    hwider, fun slot hstart hstop => (hkeeps.slots slot (h.slots slot hstart hstop)).1⟩
  intro slot hstart hstop
  rw [Tree.length_depthFirstSlots] at hstop
  exact (hkeeps.slots slot (h.slots slot hstart hstop)).2

namespace Writer

variable {layers : List Nat} {w w' : Writer} {start : Nat} {held : List Slot}

/-- The slots of the arguments of placed expressions. -/
def argumentSlots (placed : List PlacedNode) : List Nat :=
  placed.flatMap fun node => List.range' node.start node.children.length

/-- The slots that steps assign, in order. -/
def assigned (w : Writer) (steps : List Step) : List Nat :=
  (w.assignments steps).map Prod.fst

theorem assigned_append {w w' : Writer} {steps more : List Step}
    (h : steps.foldlM Step.run w = some w') :
    w.assigned (steps ++ more) = w.assigned steps ++ w'.assigned more := by
  rw [assigned, assignments_append h, List.map_append]
  rfl

theorem assigned_finish (w : Writer) : w.assigned [.finish] = [] := by
  rw [assigned, assignments]
  cases Step.run w .finish <;> rfl

/-- Trees are written as the next arguments of the current expression: the expressions
in them are numbered as they start and put in their places, and the steps assign the
slots of the trees and of all arguments below them, each of these once. -/
structure Filled (layers : List Nat) (w : Writer) (first : Nat) (trees : List Tree)
    (w' : Writer) : Prop where
  puts : ∀ k node, (place w.free (Tree.allDepthFirst w.layer trees))[k]? = some node →
    w'.raw.Puts ((w'.done layers).since w.nextExpression) (w.nextExpression + k) node
  assigned : (w.assigned (Tree.allSteps trees)).Perm
    (List.range' first trees.length ++
      argumentSlots (place w.free (Tree.allDepthFirst w.layer trees)))

theorem filled_nil (first : Nat) : Filled layers w first [] w where
  puts _ _ h := by cases h
  assigned := .refl _

/-- A scalar takes one slot, and puts no expression. -/
theorem filled_scalar {value : Scalar} (h : Ready layers w start held [.scalar value])
    (hscalar : w.scalar value = some w') :
    Filled layers w (start + held.length) [.scalar value] w' where
  puts _ _ h := by cases h
  assigned := by
    rw [Tree.allSteps, Tree.allSteps, List.append_nil, Tree.steps, assigned,
      @assignments_cons w w' (.scalar value) [] hscalar, Step.assignment?, takeSlot_eq h.writes]
    exact .refl _

section Node

variable {head : String} {children : List Tree} {w'' last : Writer}

/-- **An expression is put where the cursor of its layer is**, and its arguments come
from there on. -/
theorem filled_node (h : Ready layers w start held [.node head children])
    (hstart : w.start head = some w') (hstarted : Started layers w start held head w')
    (hwrite : writeTrees children w' = some w'')
    (hwrote : Wrote layers w' (w.free w.layer) [] children w'')
    (hfinished : Finished w'' (w.free w.layer)
      (Tree.depthFirstSlots (w.nextExpression + 1) children) head last)
    (hlayer : last.layer = w.layer)
    (hfilled : Filled layers w' (w.free w.layer) children w'') :
    Filled layers w (start + held.length) [.node head children] last := by
  have hplace : place w.free (Tree.allDepthFirst w.layer [.node head children]) =
      ⟨⟨⟨head, children⟩, w.layer⟩, w.free w.layer⟩ ::
        place w'.free (Tree.allDepthFirst w'.layer children) := by
    rw [hstarted.layer, hstarted.free, ← Tree.place_depthFirst_node, Tree.allDepthFirst,
      Tree.allDepthFirst, List.append_nil]
  refine ⟨fun k node hnode => ?_, ?_⟩
  · rw [hplace] at hnode
    cases k with
    | zero =>
      cases hnode
      obtain ⟨hindex, hslots⟩ := done_node h hstarted hwrote hfinished hlayer
      exact ⟨stores_node hstarted hwrote hfinished, hindex, hslots⟩
    | succ k =>
      have hputs := hfilled.puts k node hnode
      rw [hstarted.next, Nat.add_assoc, Nat.add_comm 1 k] at hputs
      exact hputs.of_keeps (keeps_below h hstarted hwrote hfinished hlayer)
  · have hchildren := hfilled.assigned
    have hsteps : (Tree.allSteps children).foldlM Step.run w' = some w'' := by
      rw [← writeTrees_eq_steps, hwrite]
    have hassigned : w.assigned (Tree.allSteps [.node head children]) =
        (start + held.length) :: w'.assigned (Tree.allSteps children) := by
      rw [Tree.allSteps, Tree.allSteps, Tree.steps, List.append_nil, List.cons_append]
      rw [assigned, @assignments_cons w w' (.start head) _ hstart, Step.assignment?,
        takeSlot_eq h.writes]
      show (start + held.length) :: w'.assigned (Tree.allSteps children ++ [.finish]) = _
      rw [assigned_append hsteps, assigned_finish, List.append_nil]
    rw [hplace, hassigned]
    exact .cons _ hchildren

end Node

/-- Trees are put one after another. -/
theorem Filled.cons {tree : Tree} {rest : List Tree} {w'' : Writer}
    (hwrite : writeTree tree w = some w') (hwrote : Wrote layers w start held [tree] w')
    (hrest : Wrote layers w' start (held ++ Tree.depthFirstSlots w.nextExpression [tree]) rest w'')
    (h : Filled layers w (start + held.length) [tree] w')
    (h' : Filled layers w' (start + held.length + 1) rest w'') :
    Filled layers w (start + held.length) (tree :: rest) w'' := by
  have hone : Tree.allDepthFirst w.layer [tree] = Tree.depthFirst w.layer tree := by
    rw [Tree.allDepthFirst, Tree.allDepthFirst, List.append_nil]
  have hplace : place w.free (Tree.allDepthFirst w.layer (tree :: rest)) =
      place w.free (Tree.allDepthFirst w.layer [tree]) ++
        place w'.free (Tree.allDepthFirst w'.layer rest) := by
    rw [Tree.allDepthFirst, ← hone, place_append, hwrote.layer]
    refine congrArg (_ ++ place · _) (funext fun l => ?_)
    rw [hwrote.free, Tree.argumentsFrom_allDepthFirst]
  refine ⟨fun k node hnode => ?_, ?_⟩
  · rw [hplace] at hnode
    by_cases hk : k < (place w.free (Tree.allDepthFirst w.layer [tree])).length
    · rw [List.getElem?_append_left hk] at hnode
      exact (h.puts k node hnode).of_keeps (hrest.keeps.since _)
    · rw [List.getElem?_append_right (Nat.le_of_not_lt hk)] at hnode
      rw [length_place, Tree.length_allDepthFirst] at hk hnode
      have hputs := (h'.puts _ node hnode).of_keeps
        (.since_le _ _ (show w.nextExpression ≤ w'.nextExpression by rw [hwrote.next]; omega))
      rwa [hwrote.next, Nat.add_assoc, Nat.add_sub_cancel' (Nat.le_of_not_lt hk)] at hputs
  · have hsteps : (Tree.allSteps [tree]).foldlM Step.run w = some w' := by
      rw [← writeTrees_eq_steps, writeTrees, hwrite]
      rfl
    have hassigned : w.assigned (Tree.allSteps (tree :: rest)) =
        w.assigned (Tree.allSteps [tree]) ++ w'.assigned (Tree.allSteps rest) := by
      rw [← assigned_append hsteps, Tree.allSteps, Tree.allSteps, Tree.allSteps, List.append_nil]
    rw [hplace, hassigned, argumentSlots, List.flatMap_append, List.length_cons, List.range'_succ]
    refine (h.assigned.append h'.assigned).trans ?_
    rw [List.length_singleton, List.range'_one, List.append_assoc, List.singleton_append,
      List.cons_append]
    -- The slots below the first tree come before those of the other trees.
    exact .cons _ (List.perm_append_comm_assoc _ _ _)

mutual

/-- **A tree is put where `place` says**, wherever there is room for it. -/
theorem writeTree_filled (hwords : total layers < 2 ^ 64) :
    ∀ (tree : Tree) {w w' : Writer} {start : Nat} {held : List Slot},
      Ready layers w start held [tree] → writeTree tree w = some w' →
        Filled layers w (start + held.length) [tree] w'
  | .scalar _, _, _, _, _, h, hwrite => filled_scalar h hwrite
  | .node head children, w, _, _, _, h, hwrite => by
    obtain ⟨w', w'', last, hstart, hstarted, hchildren, hwrote, hfinish, hfinished, -, -, hlayer⟩ :=
      exists_finished hwords (fun hready hcurrent =>
        writeTrees_spec hwords children hready hcurrent) h
    have hlast : writeTree (.node head children) w = some last := by
      rw [writeTree, hstart]
      show writeTrees children w' >>= finish = some last
      rw [hchildren]
      exact hfinish
    cases hlast.symm.trans hwrite
    have hcurrent : w'.current.expression < w'.nextExpression := by
      rw [hstarted.current, hstarted.next]
      exact Nat.lt_succ_self _
    exact filled_node h hstart hstarted hchildren hwrote hfinished hlayer
      (writeTrees_filled hwords children (hstarted.ready hwords h) hcurrent hchildren)

theorem writeTrees_filled (hwords : total layers < 2 ^ 64) :
    ∀ (trees : List Tree) {w w' : Writer} {start : Nat} {held : List Slot},
      Ready layers w start held trees → w.current.expression < w.nextExpression →
        writeTrees trees w = some w' → Filled layers w (start + held.length) trees w'
  | [], _, _, _, _, _, _, hwrite => by
    cases hwrite
    exact filled_nil _
  | tree :: rest, w, _, start, held, h, hcurrent, hwrite => by
    obtain ⟨w', htree, hfirst⟩ := writeTree_spec hwords tree h.first
    have hready := h.rest hcurrent hfirst
    have hcurrent' : w'.current.expression < w'.nextExpression := by
      rw [hfirst.current, hfirst.next]
      exact Nat.lt_of_lt_of_le hcurrent (Nat.le_add_right _ _)
    obtain ⟨w'', hrest, hwrote⟩ := writeTrees_spec hwords rest hready hcurrent'
    have hlast : writeTrees (tree :: rest) w = some w'' := by
      rw [writeTrees, htree]
      exact hrest
    cases hlast.symm.trans hwrite
    have hfilled := writeTrees_filled hwords rest hready hcurrent' hrest
    rw [List.length_append, Tree.length_depthFirstSlots, List.length_singleton,
      ← Nat.add_assoc] at hfilled
    exact .cons htree hfirst hwrote (writeTree_filled hwords tree h.first htree) hfilled

end

end Writer

end FlatTree
