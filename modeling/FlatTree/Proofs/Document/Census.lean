import FlatTree.Build.Tree
import FlatTree.Document.Census

/-!
# What a census counts

The census of a document is the census of its tree: on each layer it counts the
arguments that the writer is going to lay out there, and it counts the
expressions. As layers stand one after another, sums of the counts say where they
start.

- `slotsOn`, `layerStart`: the slots of a layer, and the first one of them.
- `Tree.argumentsOn`, `Tree.expressions`: what there is to count in a tree.
- `Census.Adds`: a census counts trees in addition to another one.
- `Document.adds_census`: the census of a document counts its tree.
-/

namespace FlatTree

/-! ## Layers one after another -/

/-- Number of slots on a layer. -/
def slotsOn (layers : List Nat) (l : Nat) : Nat :=
  layers[l]?.getD 0

/-- The slot at which a layer starts. -/
def layerStart (layers : List Nat) (l : Nat) : Nat :=
  total (layers.take l)

theorem layerStart_succ :
    ∀ (layers : List Nat) (l : Nat),
      layerStart layers (l + 1) = layerStart layers l + slotsOn layers l
  | [], 0 => rfl
  | [], _ + 1 => rfl
  | count :: rest, 0 => (Nat.add_comm 0 count).symm
  | count :: rest, l + 1 => by
    have ih := layerStart_succ rest l
    show count + layerStart rest (l + 1) = count + layerStart rest l + slotsOn rest l
    omega

theorem layerStart_mono {layers : List Nat} {l m : Nat} (h : l ≤ m) :
    layerStart layers l ≤ layerStart layers m := by
  induction h with
  | refl => exact Nat.le_refl _
  | step _ ih =>
    rw [layerStart_succ]
    exact Nat.le_trans ih (Nat.le_add_right _ _)

/-- Past the last layer all slots are taken. -/
theorem layerStart_of_length_le {layers : List Nat} {l : Nat} (h : layers.length ≤ l) :
    layerStart layers l = total layers := by
  rw [layerStart, List.take_of_length_le h]

theorem layerStart_le_total (layers : List Nat) (l : Nat) : layerStart layers l ≤ total layers := by
  rw [← layerStart_of_length_le (Nat.le_add_right layers.length l)]
  exact layerStart_mono (Nat.le_add_left l _)

/-- A layer that has slots was counted. -/
theorem lt_length_of_layerStart_lt {layers : List Nat} {l : Nat}
    (h : layerStart layers l < layerStart layers (l + 1)) : l < layers.length := by
  refine Nat.lt_of_not_le fun hle => ?_
  rw [layerStart_of_length_le hle, layerStart_of_length_le (Nat.le_succ_of_le hle)] at h
  exact absurd h (Nat.lt_irrefl _)

/-! ## What there is to count -/

namespace Tree

mutual

/-- Arguments on layer `l` of the expressions in a tree of which the own slot is
on some layer. -/
def argumentsOn (l : Nat) : Nat → Tree → Nat
  | _, scalar _ => 0
  | layer, node _ children =>
    (if l = layer + 1 then children.length else 0) + allArgumentsOn l (layer + 1) children

/-- Arguments on layer `l` of the expressions in trees. -/
def allArgumentsOn (l : Nat) : Nat → List Tree → Nat
  | _, [] => 0
  | layer, child :: rest => argumentsOn l layer child + allArgumentsOn l layer rest

end

mutual

/-- Number of expressions in a tree. -/
def expressions : Tree → Nat
  | scalar _ => 0
  | node _ children => 1 + allExpressions children

/-- Number of expressions in trees. -/
def allExpressions : List Tree → Nat
  | [] => 0
  | child :: rest => expressions child + allExpressions rest

end

mutual

/-- The arguments of a tree stand on layers below its own. -/
theorem argumentsOn_eq_zero {l : Nat} :
    ∀ {layer : Nat} (tree : Tree), l ≤ layer → argumentsOn l layer tree = 0
  | _, scalar _, _ => rfl
  | layer, node _ children, h => by
    rw [argumentsOn, if_neg (by omega), allArgumentsOn_eq_zero children (by omega)]

theorem allArgumentsOn_eq_zero {l : Nat} :
    ∀ {layer : Nat} (trees : List Tree), l ≤ layer → allArgumentsOn l layer trees = 0
  | _, [], _ => rfl
  | layer, child :: rest, h => by
    rw [allArgumentsOn, argumentsOn_eq_zero child h, allArgumentsOn_eq_zero rest h]

end

mutual

theorem expressions_le_size : ∀ tree : Tree, tree.expressions ≤ tree.size
  | scalar _ => Nat.zero_le 1
  | node _ children => Nat.add_le_add_left (allExpressions_le_sizes children) 1

theorem allExpressions_le_sizes : ∀ trees : List Tree, allExpressions trees ≤ sizes trees
  | [] => Nat.le_refl 0
  | child :: rest => Nat.add_le_add (expressions_le_size child) (allExpressions_le_sizes rest)

end

theorem allArgumentsOn_append (l layer : Nat) (trees more : List Tree) :
    allArgumentsOn l layer (trees ++ more) =
      allArgumentsOn l layer trees + allArgumentsOn l layer more := by
  induction trees with
  | nil => exact (Nat.zero_add _).symm
  | cons child rest ih => rw [List.cons_append, allArgumentsOn, ih, allArgumentsOn, Nat.add_assoc]

theorem allExpressions_append (trees more : List Tree) :
    allExpressions (trees ++ more) = allExpressions trees + allExpressions more := by
  induction trees with
  | nil => exact (Nat.zero_add _).symm
  | cons child rest ih => rw [List.cons_append, allExpressions, ih, allExpressions, Nat.add_assoc]

theorem sizes_append (trees more : List Tree) :
    sizes (trees ++ more) = sizes trees + sizes more := by
  induction trees with
  | nil => exact (Nat.zero_add _).symm
  | cons child rest ih => rw [List.cons_append, sizes, ih, sizes, Nat.add_assoc]

/-! ## Columns -/

theorem count_cells {α : Type} (f : α → Scalar) (l layer : Nat) :
    ∀ cells : List α, allArgumentsOn l layer (cells.map fun cell => scalar (f cell)) = 0 ∧
      allExpressions (cells.map fun cell => scalar (f cell)) = 0 ∧
      sizes (cells.map fun cell => scalar (f cell)) = cells.length
  | [] => ⟨rfl, rfl, rfl⟩
  | cell :: rest => by
    obtain ⟨harguments, hexpressions, hsizes⟩ := count_cells f l layer rest
    rw [List.map_cons, allArgumentsOn, allExpressions, sizes, harguments, hexpressions, hsizes]
    exact ⟨rfl, rfl, Nat.add_comm 1 rest.length⟩

/-- The arguments of columns are their cells, on the next layer. -/
theorem allArgumentsOn_columns (l layer : Nat) :
    ∀ columns : List Column, allArgumentsOn l layer (columns.map Column.tree) =
      if l = layer + 1 then total (columns.map fun column => column.cells.length) else 0
  | [] => (ite_self 0).symm
  | column :: rest => by
    have hcells := (count_cells Cell.scalar l (layer + 1) column.cells).1
    rw [List.map_cons, allArgumentsOn, Column.tree, argumentsOn, hcells, List.length_map,
      allArgumentsOn_columns l layer rest, List.map_cons, total]
    split <;> rfl

theorem allExpressions_columns :
    ∀ columns : List Column, allExpressions (columns.map Column.tree) = columns.length
  | [] => rfl
  | column :: rest => by
    have hcells := (count_cells Cell.scalar 0 0 column.cells).2.1
    rw [List.map_cons, allExpressions, Column.tree, expressions, hcells,
      allExpressions_columns rest, List.length_cons]
    omega

theorem sizes_columns :
    ∀ columns : List Column, sizes (columns.map Column.tree) =
      columns.length + total (columns.map fun column => column.cells.length)
  | [] => rfl
  | column :: rest => by
    have hcells := (count_cells Cell.scalar 0 0 column.cells).2.2
    rw [List.map_cons, sizes, Column.tree, size, hcells, sizes_columns rest, List.length_cons,
      List.map_cons, total]
    omega

end Tree

/-! ## Counting -/

theorem slotsOn_bumpLayer :
    ∀ (layer slots : Nat) (layers : List Nat) (l : Nat),
      slotsOn (bumpLayer layer slots layers) l =
        slotsOn layers l + if l = layer then slots else 0
  | 0, slots, [], 0 => (Nat.zero_add slots).symm
  | 0, _, [], _ + 1 => rfl
  | 0, _, _ :: _, 0 => rfl
  | 0, _, _ :: _, _ + 1 => rfl
  | _ + 1, _, [], 0 => rfl
  | layer + 1, slots, [], l + 1 => by
    simp only [Nat.add_right_cancel_iff]
    exact slotsOn_bumpLayer layer slots [] l
  | _ + 1, _, _ :: _, 0 => rfl
  | layer + 1, slots, _ :: rest, l + 1 => by
    simp only [Nat.add_right_cancel_iff]
    exact slotsOn_bumpLayer layer slots rest l

theorem total_bumpLayer :
    ∀ (layer slots : Nat) (layers : List Nat),
      total (bumpLayer layer slots layers) = total layers + slots
  | 0, slots, [] => Nat.add_comm slots 0
  | 0, slots, count :: rest => by
    show count + slots + total rest = count + total rest + slots
    omega
  | layer + 1, slots, [] => by
    have ih := total_bumpLayer layer slots []
    show 0 + total (bumpLayer layer slots []) = _
    rw [ih, Nat.zero_add]
  | layer + 1, slots, count :: rest => by
    have ih := total_bumpLayer layer slots rest
    show count + total (bumpLayer layer slots rest) = count + total rest + slots
    omega

namespace Census

/-- A census counts trees with slots on a layer in addition to another one. -/
structure Adds (layer : Nat) (trees : List Tree) (c c' : Census) : Prop where
  layers : ∀ l, slotsOn c'.layers l =
    slotsOn c.layers l + (if l = layer then trees.length else 0) +
      Tree.allArgumentsOn l layer trees
  expressions : c'.expressions = c.expressions + Tree.allExpressions trees
  slots : c'.slots = c.slots + Tree.sizes trees

theorem addExpressions_addExpressions (c : Census) (m n : Nat) :
    (c.addExpressions m).addExpressions n = c.addExpressions (m + n) := by
  rw [addExpressions, addExpressions, addExpressions, Nat.add_assoc]

namespace Adds

variable {layer : Nat} {trees more : List Tree} {c c' c'' : Census}

theorem nil : Adds layer [] c c where
  layers l := by
    rw [List.length_nil, ite_self]
    rfl
  expressions := rfl
  slots := rfl

theorem append (h : Adds layer trees c c') (h' : Adds layer more c' c'') :
    Adds layer (trees ++ more) c c'' where
  layers l := by
    have hfirst := h.layers l
    have hnext := h'.layers l
    rw [Tree.allArgumentsOn_append, List.length_append]
    by_cases hl : l = layer
    · rw [if_pos hl] at hfirst hnext ⊢
      omega
    · rw [if_neg hl] at hfirst hnext ⊢
      omega
  expressions := by
    rw [h'.expressions, h.expressions, Tree.allExpressions_append, Nat.add_assoc]
  slots := by
    rw [h'.slots, h.slots, Tree.sizes_append, Nat.add_assoc]

theorem scalar (value : Scalar) : Adds layer [.scalar value] c (c.bump layer 1) where
  layers := slotsOn_bumpLayer layer 1 c.layers
  expressions := rfl
  slots := total_bumpLayer layer 1 c.layers

/-- The slot of an expression is on one layer, and those of its arguments are on
the next. -/
theorem node {head : String} {children : List Tree}
    (h : Adds (layer + 1) children ((c.bump layer 1).addExpressions 1) c') :
    Adds layer [.node head children] c c' where
  layers l := by
    have hlayers := h.layers l
    have hbump := slotsOn_bumpLayer layer 1 c.layers l
    show _ = _ + (if l = layer then 1 else 0) +
      ((if l = layer + 1 then children.length else 0) +
        Tree.allArgumentsOn l (layer + 1) children + 0)
    rw [hlayers]
    show slotsOn (bumpLayer layer 1 c.layers) l + _ + _ = _
    omega
  expressions := by
    rw [h.expressions]
    show c.expressions + 1 + _ = c.expressions + (1 + _ + 0)
    omega
  slots := by
    rw [h.slots]
    show total (bumpLayer layer 1 c.layers) + _ = total c.layers + (1 + _ + 0)
    rw [total_bumpLayer]
    omega

/-- The columns of a table are counted at once. -/
theorem columns (columns : List Column) :
    Adds layer (columns.map Column.tree) c
      (((c.addExpressions columns.length).bump layer columns.length).bump (layer + 1)
        (total (columns.map fun column => column.cells.length))) where
  layers l := by
    show slotsOn (bumpLayer (layer + 1) _ (bumpLayer layer columns.length c.layers)) l = _
    rw [slotsOn_bumpLayer, slotsOn_bumpLayer, Tree.allArgumentsOn_columns, List.length_map]
  expressions := by
    rw [Tree.allExpressions_columns]
    rfl
  slots := by
    show total (bumpLayer (layer + 1) _ (bumpLayer layer columns.length c.layers)) = _
    rw [total_bumpLayer, total_bumpLayer, Tree.sizes_columns, ← Nat.add_assoc]
    rfl

end Adds

end Census

/-! ## Documents -/

namespace Document

mutual

/-- Counting a document adds its tree. -/
theorem count_adds :
    ∀ (document : Document) (layer : Nat) (c : Census),
      Census.Adds layer [document.tree] c (document.count layer c)
  | object members, layer, c => .node (countMembers_adds members layer _)
  | list items, layer, c => .node (countItems_adds items (layer + 1) _)
  | table columns, layer, c => by
    refine .node ?_
    have hcolumns := @Census.Adds.columns (layer + 1) ((c.bump layer 1).addExpressions 1) columns
    rw [Census.addExpressions_addExpressions] at hcolumns
    exact hcolumns
  | long word, _, _ => .scalar (.long word)
  | double bits, _, _ => .scalar (.double bits)
  | string text, _, _ => .scalar (.string text)
  | symbol name, _, _ => .scalar (.symbol name)

theorem countItems_adds :
    ∀ (items : List Document) (layer : Nat) (c : Census),
      Census.Adds layer (itemTrees items) c (countItems layer items c)
  | [], _, _ => .nil
  | item :: rest, layer, c => (count_adds item layer c).append (countItems_adds rest layer _)

theorem countMembers_adds :
    ∀ (members : List (String × Document)) (layer : Nat) (c : Census),
      Census.Adds (layer + 1) (memberTrees members) c (countMembers layer members c)
  | [], _, _ => .nil
  | (key, value) :: rest, layer, c => by
    have hvalue : Census.Adds (layer + 1) [.node key [value.tree]] c _ :=
      .node (count_adds value (layer + 2) _)
    exact hvalue.append (countMembers_adds rest layer _)

end

/-- **The census of a document counts its tree.** -/
theorem adds_census (document : Document) :
    Census.Adds 0 [document.tree] .empty document.census :=
  count_adds document 0 .empty

/-- A document has as many slots as its tree has nodes. -/
theorem slots_census (document : Document) : document.census.slots = document.tree.size := by
  rw [(adds_census document).slots]
  show 0 + (document.tree.size + 0) = _
  omega

end Document

end FlatTree
