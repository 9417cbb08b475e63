import Mathlib.Data.List.Basic
import FlatTree.Buffer.Slot
import FlatTree.Proofs.Document.Census

/-!
# Where a document puts its expressions

The writer goes through a tree depth first and numbers the expressions as they
start. Of each it knows the layer, and on each layer the arguments of one expression
come right after those of the one before. That says where everything is, without
a writer.

- `Tree.depthFirst`: the expressions of a tree in the order in which they start.
- `Tree.depthFirstSlots`: what the slots of arguments hold then.
- `place`: the same expressions with the slots of their arguments.
- `place_apart`, `exists_place_of_lt`: placed expressions share no slot, and leave
  none out.
- `Tree.perm_targets`: each expression below is referred to once.
- `Tree.references`: by which slot.
-/

namespace FlatTree

/-- An expression, with the layer of the slot that refers to it. -/
structure LayeredNode extends HeadedNode where
  layer : Nat

/-- An expression with the first slot of its arguments. -/
structure PlacedNode extends LayeredNode where
  start : Nat

/-- The slot after the arguments of an expression. -/
def PlacedNode.stop (node : PlacedNode) : Nat := node.start + node.children.length

/-! ## Layers filled in order -/

/-- Number of arguments that the expressions on a layer have. -/
def argumentsFrom (l : Nat) : List LayeredNode → Nat
  | [] => 0
  | node :: rest => (if l = node.layer then node.children.length else 0) + argumentsFrom l rest

/-- The free slot below each layer, when the arguments of an expression are placed. -/
def advance (free : Nat → Nat) (node : LayeredNode) (l : Nat) : Nat :=
  if l = node.layer then free l + node.children.length else free l

/-- Places the arguments of expressions at the free slots below their layers. -/
def place (free : Nat → Nat) : List LayeredNode → List PlacedNode
  | [] => []
  | node :: rest => ⟨node, free node.layer⟩ :: place (advance free node) rest

section Place

variable {free : Nat → Nat} {nodes more : List LayeredNode}

theorem argumentsFrom_append (l : Nat) (nodes more : List LayeredNode) :
    argumentsFrom l (nodes ++ more) = argumentsFrom l nodes + argumentsFrom l more := by
  induction nodes with
  | nil => exact (Nat.zero_add _).symm
  | cons node rest ih => rw [List.cons_append, argumentsFrom, argumentsFrom, ih, Nat.add_assoc]

theorem advance_add (free : Nat → Nat) (node : LayeredNode) (rest : List LayeredNode) (l : Nat) :
    advance free node l + argumentsFrom l rest = free l + argumentsFrom l (node :: rest) := by
  rw [advance, argumentsFrom]
  split <;> omega

theorem le_advance (free : Nat → Nat) (node : LayeredNode) (l : Nat) :
    free l ≤ advance free node l := by
  rw [advance]
  split <;> omega

/-- What comes later on a layer is placed after what came before. -/
theorem place_append :
    ∀ (free : Nat → Nat) (nodes more : List LayeredNode),
      place free (nodes ++ more) =
        place free nodes ++ place (fun l => free l + argumentsFrom l nodes) more
  | _, [], _ => rfl
  | free, node :: rest, more => by
    rw [List.cons_append, place, place, place_append (advance free node) rest more]
    simp only [advance_add, List.cons_append]

theorem map_place (free : Nat → Nat) (nodes : List LayeredNode) :
    (place free nodes).map PlacedNode.toLayeredNode = nodes := by
  induction nodes generalizing free with
  | nil => rfl
  | cons node rest ih => rw [place, List.map_cons, ih]

theorem length_place (free : Nat → Nat) (nodes : List LayeredNode) :
    (place free nodes).length = nodes.length := by
  rw [← List.length_map, map_place]

/-- An expression is placed between the slots before its layer and those after. -/
theorem place_within {node : PlacedNode} (h : node ∈ place free nodes) :
    free node.layer ≤ node.start ∧
      node.stop ≤ free node.layer + argumentsFrom node.layer nodes := by
  induction nodes generalizing free with
  | nil => cases h
  | cons first rest ih =>
    rcases List.mem_cons.mp h with rfl | h
    · show free first.layer ≤ free first.layer ∧
        free first.layer + first.children.length ≤
          free first.layer + argumentsFrom first.layer (first :: rest)
      rw [argumentsFrom, if_pos rfl]
      exact ⟨Nat.le_refl _, by omega⟩
    · obtain ⟨hstart, hstop⟩ := ih h
      rw [advance_add] at hstop
      exact ⟨Nat.le_trans (le_advance free first _) hstart, hstop⟩

/-- On one layer expressions are placed in their order. -/
theorem place_ordered (free : Nat → Nat) (nodes : List LayeredNode) :
    (place free nodes).Pairwise fun node other =>
      node.layer = other.layer → node.stop ≤ other.start := by
  induction nodes generalizing free with
  | nil => exact .nil
  | cons first rest ih =>
    refine .cons (fun other hother hlayer => ?_) (ih _)
    have hstart := (place_within hother).1
    rw [advance, if_pos hlayer.symm] at hstart
    rw [PlacedNode.stop, hlayer]
    exact hstart

/-- Every slot that a layer takes belongs to an expression on it. -/
theorem exists_place_of_lt {l slot : Nat} (hstart : free l ≤ slot)
    (hstop : slot < free l + argumentsFrom l nodes) :
    ∃ node ∈ place free nodes, node.start ≤ slot ∧ slot < node.stop := by
  induction nodes generalizing free with
  | nil =>
    rw [argumentsFrom] at hstop
    omega
  | cons first rest ih =>
    by_cases hfirst : slot < advance free first l
    · -- The slot is taken by the first expression, which is therefore on the layer.
      rw [advance] at hfirst
      split at hfirst
      · next hl =>
        subst hl
        exact ⟨_, List.mem_cons_self, hstart, hfirst⟩
      · omega
    · rw [← advance_add] at hstop
      obtain ⟨node, hnode, hslot⟩ := ih (Nat.le_of_not_lt hfirst) hstop
      exact ⟨node, List.mem_cons_of_mem _ hnode, hslot⟩

/-- Where expressions are placed depends on the free slots below their layers only. -/
theorem place_congr {free' : Nat → Nat} (h : ∀ node ∈ nodes, free node.layer = free' node.layer) :
    place free nodes = place free' nodes := by
  induction nodes generalizing free free' with
  | nil => rfl
  | cons first rest ih =>
    rw [place, place, h first List.mem_cons_self]
    refine congrArg _ (ih fun node hnode => ?_)
    rw [advance, advance, h node (List.mem_cons_of_mem _ hnode)]

/-- Where layers do not overlap, placed expressions share no slot. -/
theorem place_apart (hfree : ∀ l m, l < m → free l + argumentsFrom l nodes ≤ free m) :
    (place free nodes).Pairwise fun node other =>
      node.stop ≤ other.start ∨ other.stop ≤ node.start := by
  refine (List.Pairwise.imp_of_mem ?_) (place_ordered free nodes)
  intro node other hnode hother hordered
  obtain ⟨hstart, hstop⟩ := place_within hnode
  obtain ⟨hstart', hstop'⟩ := place_within hother
  rcases Nat.lt_trichotomy node.layer other.layer with hlt | heq | hgt
  · have := hfree _ _ hlt
    exact .inl (by omega)
  · exact .inl (hordered heq)
  · have := hfree _ _ hgt
    exact .inr (by omega)

end Place

/-! ## The expressions of a tree -/

namespace Tree

mutual

/-- The expressions in a tree, in the order in which they start. -/
def depthFirst : Nat → Tree → List LayeredNode
  | _, scalar _ => []
  | layer, node head children => ⟨⟨head, children⟩, layer⟩ :: allDepthFirst (layer + 1) children

/-- The expressions in trees, in the order in which they start. -/
def allDepthFirst : Nat → List Tree → List LayeredNode
  | _, [] => []
  | layer, child :: rest => depthFirst layer child ++ allDepthFirst layer rest

end

/-- What the slots of arguments hold, if the expressions among them and below them
are numbered from `next` on as they start. -/
def depthFirstSlots : Nat → List Tree → List Slot
  | _, [] => []
  | next, scalar value :: rest => .scalar value :: depthFirstSlots next rest
  | next, node head children :: rest =>
    .expression next :: depthFirstSlots (next + (node head children).expressions) rest

mutual

theorem length_depthFirst :
    ∀ (layer : Nat) (tree : Tree), (depthFirst layer tree).length = tree.expressions
  | _, scalar _ => rfl
  | layer, node head children => by
    rw [depthFirst, List.length_cons, length_allDepthFirst (layer + 1) children, expressions,
      Nat.add_comm]

theorem length_allDepthFirst :
    ∀ (layer : Nat) (trees : List Tree), (allDepthFirst layer trees).length = allExpressions trees
  | _, [] => rfl
  | layer, child :: rest => by
    rw [allDepthFirst, List.length_append, length_depthFirst layer child,
      length_allDepthFirst layer rest, allExpressions]

end

mutual

/-- The expressions below a slot are on its layer or below. -/
theorem le_layer_of_mem_depthFirst {node : LayeredNode} :
    ∀ {layer : Nat} (tree : Tree), node ∈ depthFirst layer tree → layer ≤ node.layer
  | _, .scalar _, h => by cases h
  | layer, .node head children, h => by
    rcases List.mem_cons.mp h with rfl | h
    · exact Nat.le_refl _
    · exact Nat.le_of_succ_le (le_layer_of_mem_allDepthFirst children h)

theorem le_layer_of_mem_allDepthFirst {node : LayeredNode} :
    ∀ {layer : Nat} (trees : List Tree), node ∈ allDepthFirst layer trees → layer ≤ node.layer
  | _, [], h => by cases h
  | _, child :: rest, h => by
    rcases List.mem_append.mp h with h | h
    · exact le_layer_of_mem_depthFirst child h
    · exact le_layer_of_mem_allDepthFirst rest h

end

/-- The arguments of an expression do not move what is placed below them. -/
theorem place_depthFirst_node (free : Nat → Nat) (layer : Nat) (head : String)
    (children : List Tree) :
    place free (depthFirst layer (.node head children)) =
      ⟨⟨⟨head, children⟩, layer⟩, free layer⟩ ::
        place free (allDepthFirst (layer + 1) children) := by
  rw [depthFirst, place]
  refine congrArg _ (place_congr fun node hnode => if_neg ?_)
  exact Nat.ne_of_gt (le_layer_of_mem_allDepthFirst children hnode)

mutual

/-- The arguments of the expressions on a layer are the slots of the next. -/
theorem argumentsFrom_depthFirst (l : Nat) :
    ∀ (layer : Nat) (tree : Tree),
      argumentsFrom l (depthFirst layer tree) = argumentsOn (l + 1) layer tree
  | _, scalar _ => rfl
  | layer, node head children => by
    rw [depthFirst, argumentsFrom, argumentsFrom_allDepthFirst l (layer + 1) children, argumentsOn]
    simp only [Nat.add_right_cancel_iff]

theorem argumentsFrom_allDepthFirst (l : Nat) :
    ∀ (layer : Nat) (trees : List Tree),
      argumentsFrom l (allDepthFirst layer trees) = allArgumentsOn (l + 1) layer trees
  | _, [] => rfl
  | layer, child :: rest => by
    rw [allDepthFirst, argumentsFrom_append, argumentsFrom_depthFirst l layer child,
      argumentsFrom_allDepthFirst l layer rest, allArgumentsOn]

end

theorem length_depthFirstSlots :
    ∀ (next : Nat) (trees : List Tree), (depthFirstSlots next trees).length = trees.length
  | _, [] => rfl
  | next, scalar _ :: rest => congrArg (· + 1) (length_depthFirstSlots next rest)
  | next, node head children :: rest =>
    congrArg (· + 1) (length_depthFirstSlots (next + (node head children).expressions) rest)

theorem depthFirstSlots_append :
    ∀ (next : Nat) (trees more : List Tree),
      depthFirstSlots next (trees ++ more) =
        depthFirstSlots next trees ++ depthFirstSlots (next + allExpressions trees) more
  | _, [], _ => rfl
  | next, scalar value :: rest, more => by
    have ih := depthFirstSlots_append next rest more
    rw [List.cons_append, depthFirstSlots, ih, depthFirstSlots, allExpressions, expressions,
      Nat.zero_add]
    rfl
  | next, node head children :: rest, more => by
    have ih := depthFirstSlots_append (next + (node head children).expressions) rest more
    rw [List.cons_append, depthFirstSlots, ih, depthFirstSlots, allExpressions, Nat.add_assoc]
    rfl

/-! ## References -/

/-- The expressions that slots refer to. -/
def targets (held : List Slot) : List Nat :=
  held.filterMap fun s => match s with
    | .scalar _ => none
    | .expression index => some index

/-- The expressions that arguments of expressions refer to, if these are numbered from
`first` on. -/
def targetsBelow (first : Nat) (nodes : List LayeredNode) : List Nat :=
  (nodes.zipIdx first).flatMap fun place =>
    targets (depthFirstSlots (place.2 + 1) place.1.children)

theorem targetsBelow_append (first : Nat) (nodes more : List LayeredNode) :
    targetsBelow first (nodes ++ more) =
      targetsBelow first nodes ++ targetsBelow (first + nodes.length) more := by
  rw [targetsBelow, List.zipIdx_append, List.flatMap_append]
  rfl

/-- **Every expression is referred to once**: by an argument of the expression that it
is a child of. -/
theorem perm_targets :
    ∀ (next layer : Nat) (trees : List Tree),
      (targets (depthFirstSlots next trees) ++
        targetsBelow next (allDepthFirst layer trees)).Perm
          (List.range' next (allExpressions trees))
  | next, _, [] => .refl _
  | next, layer, scalar value :: rest => by
    have hrest := perm_targets next layer rest
    rw [allExpressions, expressions, Nat.zero_add]
    exact hrest
  | next, layer, node head children :: rest => by
    have hchildren := perm_targets (next + 1) (layer + 1) children
    have hrest := perm_targets (next + (node head children).expressions) layer rest
    have hlength := length_depthFirst layer (node head children)
    have hslots : targets (depthFirstSlots next (node head children :: rest)) =
        next :: targets (depthFirstSlots (next + (node head children).expressions) rest) := rfl
    have hbelow : targetsBelow next (depthFirst layer (node head children)) =
        targets (depthFirstSlots (next + 1) children) ++
          targetsBelow (next + 1) (allDepthFirst (layer + 1) children) := rfl
    have hrange : List.range' next (allExpressions (node head children :: rest)) =
        next :: (List.range' (next + 1) (allExpressions children) ++
          List.range' (next + (node head children).expressions) (allExpressions rest)) := by
      rw [allExpressions, expressions, Nat.add_assoc, Nat.add_comm 1 (_ + _), List.range'_succ,
        ← Nat.add_assoc next, List.range'_append_1]
    rw [allDepthFirst, targetsBelow_append, hlength, hslots, hbelow, hrange, List.cons_append]
    refine .cons next ?_
    -- The references to what is below the first come between those of the others.
    exact (List.perm_append_comm_assoc _ _ _).trans (hchildren.append hrest)

/-- The references from placed expressions that are numbered from `first` on: each with
the expression and the slot. -/
def references (first : Nat) (placed : List PlacedNode) : List (Nat × Nat) :=
  (placed.zipIdx first).flatMap fun place =>
    ((depthFirstSlots (place.2 + 1) place.1.children).zipIdx place.1.start).filterMap fun held =>
      match held.1 with
      | .scalar _ => none
      | .expression index => some (index, held.2)

theorem mem_references {placed : List PlacedNode} {target slot : Nat} :
    (target, slot) ∈ references 0 placed ↔
      ∃ index node i, placed[index]? = some node ∧ slot = node.start + i ∧
        (depthFirstSlots (index + 1) node.children)[i]? = some (.expression target) := by
  constructor
  · intro h
    obtain ⟨⟨node, index⟩, hplace, h⟩ := List.mem_flatMap.mp h
    obtain ⟨⟨held, other⟩, hheld, h⟩ := List.mem_filterMap.mp h
    have hnode := List.mem_zipIdx_iff_getElem?.mp hplace
    obtain ⟨hstart, hsome⟩ := List.mk_mem_zipIdx_iff_le_and_getElem?_sub.mp hheld
    cases held with
    | scalar value => cases h
    | expression child =>
      cases h
      exact ⟨index, node, _, hnode, (Nat.add_sub_cancel' hstart).symm, hsome⟩
  · rintro ⟨index, node, i, hnode, rfl, hsome⟩
    refine List.mem_flatMap.mpr ⟨(node, index), List.mem_zipIdx_iff_getElem?.mpr hnode,
      List.mem_filterMap.mpr ⟨(.expression target, node.start + i), ?_, rfl⟩⟩
    rw [List.mk_mem_zipIdx_iff_le_and_getElem?_sub, Nat.add_sub_cancel_left]
    exact ⟨Nat.le_add_right _ _, hsome⟩

theorem map_fst_references (first : Nat) (placed : List PlacedNode) :
    (references first placed).map Prod.fst =
      targetsBelow first (placed.map PlacedNode.toLayeredNode) := by
  have hheld : ∀ (held : List Slot) (start : Nat),
      ((held.zipIdx start).filterMap fun held => match held.1 with
        | .scalar _ => none
        | .expression index => some (index, held.2)).map Prod.fst = targets held := by
    intro held
    induction held with
    | nil => exact fun _ => rfl
    | cons s rest ih =>
      intro start
      cases s with
      | scalar value => exact ih (start + 1)
      | expression index => exact congrArg (index :: ·) (ih (start + 1))
  rw [references, targetsBelow, List.map_flatMap, List.zipIdx_map, List.flatMap_map]
  exact congrArg (List.flatMap · _) (funext fun place => hheld _ _)

end Tree

end FlatTree
