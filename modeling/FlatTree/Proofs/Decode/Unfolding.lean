import Mathlib.Data.Fintype.Card
import FlatTree.Proofs.Buffer.Reference
import FlatTree.Proofs.Tree.Promotion

/-!
# Unfolding a buffer to raw trees

A buffer is a graph of expressions, and nothing keeps a hostile one from being
cyclic, or from sharing and overlapping its parts. From an expression the graph
unfolds to a raw tree, if everything on the way can be read and comes to an end.

- `Unfolds`: an expression unfolds to a finite raw tree. The relation is
  inductive, so an expression on a cycle unfolds to nothing.
- `Unfolds.unique`: the tree is the only one.
- `exists_unfolds_iff`: there is one exactly if all that is reached is readable
  and the chains of references have a bound.
- `Unfolds.nesting_le_iff`: the tree is as deep as the chains of references are
  long.
- `Unfolds.levels_le_exprCount`: it has no more levels than the buffer has
  expressions.
-/

namespace FlatTree

mutual

/-- An expression unfolds to a raw tree: its head is readable, its child slots
are, and they unfold in turn. -/
inductive Unfolds (r : Regions) : Nat → Tree → Prop where
  | node {index : Nat} {head : String} {slots : List Slot} {trees : List Tree} :
    headOf r index = .ok head → r.childSlots index = .ok slots →
      SlotsUnfold r slots trees → Unfolds r index (.node head trees)

/-- Slots unfold to trees, one each. -/
inductive SlotsUnfold (r : Regions) : List Slot → List Tree → Prop where
  | nil : SlotsUnfold r [] []
  | scalar {value : Scalar} {slots : List Slot} {trees : List Tree} :
    SlotsUnfold r slots trees → SlotsUnfold r (.scalar value :: slots) (.scalar value :: trees)
  | expression {index : Nat} {tree : Tree} {slots : List Slot} {trees : List Tree} :
    Unfolds r index tree → SlotsUnfold r slots trees →
      SlotsUnfold r (.expression index :: slots) (tree :: trees)

end

variable {r : Regions}

theorem Unfolds.exists_node {index : Nat} {tree : Tree} (h : Unfolds r index tree) :
    ∃ head slots trees, tree = .node head trees ∧ headOf r index = .ok head ∧
      r.childSlots index = .ok slots ∧ SlotsUnfold r slots trees := by
  cases h with
  | node hhead hslots htrees => exact ⟨_, _, _, rfl, hhead, hslots, htrees⟩

theorem unfolds_node {index : Nat} {head : String} {trees : List Tree} :
    Unfolds r index (.node head trees) ↔ headOf r index = .ok head ∧
      ∃ slots, r.childSlots index = .ok slots ∧ SlotsUnfold r slots trees := by
  constructor
  · intro h
    cases h with
    | node hhead hslots htrees => exact ⟨hhead, _, hslots, htrees⟩
  · rintro ⟨hhead, slots, hslots, htrees⟩
    exact .node hhead hslots htrees

mutual

/-- An expression unfolds to one tree at most. -/
theorem Unfolds.unique {index : Nat} {tree other : Tree} (h : Unfolds r index tree)
    (hother : Unfolds r index other) : tree = other := by
  cases h with
  | node hhead hslots htrees =>
    cases hother with
    | node hhead' hslots' htrees' =>
      rw [hhead] at hhead'
      cases hhead'
      rw [hslots] at hslots'
      cases hslots'
      rw [htrees.unique htrees']

theorem SlotsUnfold.unique {slots : List Slot} {trees others : List Tree}
    (h : SlotsUnfold r slots trees) (hothers : SlotsUnfold r slots others) :
    trees = others := by
  cases h with
  | nil =>
    cases hothers
    rfl
  | scalar hrest =>
    cases hothers with
    | scalar hrest' => rw [hrest.unique hrest']
  | expression htree hrest =>
    cases hothers with
    | expression htree' hrest' => rw [htree.unique htree', hrest.unique hrest']

end

/-! ## Levels and chains -/

mutual

/-- No chain of references is longer than the tree is deep. -/
theorem Unfolds.chain_le {index n target : Nat} {tree : Tree} (h : Unfolds r index tree)
    (hchain : r.Chain n index target) : n ≤ tree.nesting := by
  cases h with
  | node _ hslots htrees =>
    cases hchain with
    | nil => exact Nat.zero_le _
    | cons hrefers hchain =>
      exact htrees.chain_le ((Regions.refers_iff_mem hslots).mp hrefers) hchain

theorem SlotsUnfold.chain_le {index n target : Nat} {slots : List Slot} {trees : List Tree}
    (h : SlotsUnfold r slots trees) (hmem : .expression index ∈ slots)
    (hchain : r.Chain n index target) : n + 1 ≤ Tree.levelsAll trees := by
  cases h with
  | nil => cases hmem
  | scalar hrest =>
    rcases List.mem_cons.mp hmem with heq | hmem
    · cases heq
    · exact Nat.le_trans (hrest.chain_le hmem hchain) (Nat.le_max_right _ _)
  | expression htree hrest =>
    rcases List.mem_cons.mp hmem with heq | hmem
    · cases heq
      have hle := htree.chain_le hchain
      -- The reference itself takes the step from the levels to the nesting.
      obtain ⟨head, _, trees, rfl, -⟩ := htree.exists_node
      exact Nat.le_trans (Nat.succ_le_succ hle) (Nat.le_max_left _ _)
    · exact Nat.le_trans (hrest.chain_le hmem hchain) (Nat.le_max_right _ _)

end

mutual

/-- Some chain of references is as long as the tree is deep. -/
theorem Unfolds.exists_chain {index : Nat} {tree : Tree} (h : Unfolds r index tree) :
    ∃ target, r.Chain tree.nesting index target := by
  cases h with
  | @node _ _ _ trees _ hslots htrees =>
    show ∃ target, r.Chain (Tree.levelsAll trees) index target
    cases hlevels : Tree.levelsAll trees with
    | zero => exact ⟨index, .nil⟩
    | succ n =>
      obtain ⟨next, target, hmem, hchain⟩ := htrees.exists_chain hlevels
      exact ⟨target, .cons ((Regions.refers_iff_mem hslots).mpr hmem) hchain⟩

theorem SlotsUnfold.exists_chain {slots : List Slot} {trees : List Tree} {n : Nat}
    (h : SlotsUnfold r slots trees) (hlevels : Tree.levelsAll trees = n + 1) :
    ∃ next target, .expression next ∈ slots ∧ r.Chain n next target := by
  cases h with
  | nil => cases hlevels
  | scalar hrest =>
    rw [Tree.levelsAll_cons, Tree.levels_scalar, Nat.zero_max] at hlevels
    obtain ⟨next, target, hmem, hchain⟩ := hrest.exists_chain hlevels
    exact ⟨next, target, List.mem_cons_of_mem _ hmem, hchain⟩
  | @expression index tree _ trees htree hrest =>
    rw [Tree.levelsAll_cons] at hlevels
    -- The chain goes into a tree that has the most levels.
    by_cases hle : Tree.levelsAll trees ≤ tree.levels
    · rw [Nat.max_eq_left hle] at hlevels
      obtain ⟨target, hchain⟩ := htree.exists_chain
      have hn : tree.nesting = n := by
        rw [Tree.nesting, hlevels]
        rfl
      exact ⟨index, target, List.mem_cons_self, hn ▸ hchain⟩
    · rw [Nat.max_eq_right (Nat.le_of_not_le hle)] at hlevels
      obtain ⟨next, target, hmem, hchain⟩ := hrest.exists_chain hlevels
      exact ⟨next, target, List.mem_cons_of_mem _ hmem, hchain⟩

end

/-- The limit on nesting says that no chain of references is longer. -/
theorem Unfolds.nesting_le_iff {index limit : Nat} {tree : Tree} (h : Unfolds r index tree) :
    tree.nesting ≤ limit ↔ ∀ n target, r.Chain n index target → n ≤ limit := by
  constructor
  · intro hle n target hchain
    exact Nat.le_trans (h.chain_le hchain) hle
  · intro hall
    obtain ⟨target, hchain⟩ := h.exists_chain
    exact hall _ target hchain

/-! ## No more levels than expressions -/

mutual

/-- Going down in a tree, every smaller number of levels is met. -/
theorem Unfolds.exists_levels {index levels : Nat} {tree : Tree} (h : Unfolds r index tree)
    (hlevels : levels < tree.levels) :
    ∃ below part, Unfolds r below part ∧ part.levels = levels + 1 := by
  cases h with
  | @node _ head slots trees hhead hslots htrees =>
    by_cases hlt : levels < Tree.levelsAll trees
    · exact htrees.exists_levels hlt
    · rw [Tree.levels_node] at hlevels
      refine ⟨index, _, .node hhead hslots htrees, ?_⟩
      rw [Tree.levels_node]
      omega

theorem SlotsUnfold.exists_levels {slots : List Slot} {trees : List Tree} {levels : Nat}
    (h : SlotsUnfold r slots trees) (hlevels : levels < Tree.levelsAll trees) :
    ∃ below part, Unfolds r below part ∧ part.levels = levels + 1 := by
  cases h with
  | nil => exact absurd hlevels (Nat.not_lt_zero _)
  | scalar hrest =>
    rw [Tree.levelsAll_cons, Tree.levels_scalar, Nat.zero_max] at hlevels
    exact hrest.exists_levels hlevels
  | expression htree hrest =>
    rcases lt_max_iff.mp hlevels with hlevels | hlevels
    · exact htree.exists_levels hlevels
    · exact hrest.exists_levels hlevels

end

theorem Unfolds.lt_exprCount {index : Nat} {tree : Tree} (h : Unfolds r index tree) :
    index < r.exprCount := by
  obtain ⟨_, _, _, -, hhead, -⟩ := h.exists_node
  obtain ⟨record, hrecord, -⟩ := bind_eq_ok.mp hhead
  exact Regions.exists_record_iff.mp ⟨_, Decoded.lift_eq_ok.mp hrecord⟩

/-- **A tree has no more levels than the buffer has expressions.** No expression has
two numbers of levels, so it takes another one for each. -/
theorem Unfolds.levels_le_exprCount {index : Nat} {tree : Tree} (h : Unfolds r index tree) :
    tree.levels ≤ r.exprCount := by
  choose below part hunfolds hlevels using fun k : Fin tree.levels => h.exists_levels k.isLt
  have hinjective : Function.Injective fun k =>
      (⟨below k, (hunfolds k).lt_exprCount⟩ : Fin r.exprCount) := by
    intro k l heq
    have hbelow : below k = below l := congrArg Fin.val heq
    have hpart := (hunfolds k).unique (hbelow ▸ hunfolds l)
    have hcount : k.val + 1 = l.val + 1 := by rw [← hlevels k, ← hlevels l, hpart]
    exact Fin.ext (Nat.succ.inj hcount)
  have hcard := Fintype.card_le_of_injective _ hinjective
  rwa [Fintype.card_fin, Fintype.card_fin] at hcard

/-! ## What unfolds -/

/-- The head of an expression and all its child slots are readable. -/
def Regions.Readable (r : Regions) (index : Nat) : Prop :=
  (∃ head, headOf r index = .ok head) ∧ ∃ slots, r.childSlots index = .ok slots

theorem SlotsUnfold.exists_of_mem {index : Nat} :
    ∀ {slots : List Slot} {trees : List Tree}, SlotsUnfold r slots trees →
      .expression index ∈ slots → ∃ tree, Unfolds r index tree
  | _, _, .scalar hrest, hmem => by
    rcases List.mem_cons.mp hmem with heq | hmem
    · cases heq
    · exact hrest.exists_of_mem hmem
  | _, _, .expression htree hrest, hmem => by
    rcases List.mem_cons.mp hmem with heq | hmem
    · cases heq
      exact ⟨_, htree⟩
    · exact hrest.exists_of_mem hmem

/-- What unfolds has a head, which is read from its record. -/
theorem SlotsUnfold.exists_record {held : List Slot} {trees : List Tree}
    (h : SlotsUnfold r held trees) :
    ∀ child, .expression child ∈ held → ∃ record, r.expression child = .ok record := by
  intro child hmem
  obtain ⟨tree, htree⟩ := h.exists_of_mem hmem
  obtain ⟨_, _, _, -, hhead, -⟩ := htree.exists_node
  obtain ⟨record, hrecord, -⟩ := bind_eq_ok.mp hhead
  exact ⟨record, Decoded.lift_eq_ok.mp hrecord⟩

theorem exists_slotsUnfold :
    ∀ {slots : List Slot}, (∀ index, .expression index ∈ slots → ∃ tree, Unfolds r index tree) →
      ∃ trees, SlotsUnfold r slots trees
  | [], _ => ⟨[], .nil⟩
  | s :: rest, h => by
    obtain ⟨trees, htrees⟩ := exists_slotsUnfold fun index hmem => h index (.tail _ hmem)
    cases s with
    | scalar value => exact ⟨_, .scalar htrees⟩
    | expression index =>
      obtain ⟨tree, htree⟩ := h index List.mem_cons_self
      exact ⟨_, .expression htree htrees⟩

/-- Everything reached from an expression that unfolds is readable. -/
theorem Unfolds.readable {index n target : Nat} {tree : Tree} (h : Unfolds r index tree)
    (hchain : r.Chain n index target) : r.Readable target := by
  induction hchain generalizing tree with
  | nil =>
    obtain ⟨head, slots, _, -, hhead, hslots, -⟩ := h.exists_node
    exact ⟨⟨head, hhead⟩, slots, hslots⟩
  | cons hrefers _ ih =>
    obtain ⟨_, slots, _, -, -, hslots, htrees⟩ := h.exists_node
    obtain ⟨next, hnext⟩ := htrees.exists_of_mem ((Regions.refers_iff_mem hslots).mp hrefers)
    exact ih hnext

theorem exists_unfolds_of_bound {bound : Nat} :
    ∀ {index : Nat}, (∀ n target, r.Chain n index target → n ≤ bound ∧ r.Readable target) →
      ∃ tree, Unfolds r index tree := by
  induction bound with
  | zero =>
    intro index h
    obtain ⟨-, ⟨head, hhead⟩, slots, hslots⟩ := h 0 index .nil
    -- A reference would be a chain of one step.
    have hnone : ∀ next, .expression next ∈ slots → ∃ tree, Unfolds r next tree := by
      intro next hmem
      have hstep := h 1 next (.cons ((Regions.refers_iff_mem hslots).mpr hmem) .nil)
      exact absurd hstep.1 (Nat.not_succ_le_zero 0)
    obtain ⟨trees, htrees⟩ := exists_slotsUnfold hnone
    exact ⟨_, .node hhead hslots htrees⟩
  | succ bound ih =>
    intro index h
    obtain ⟨-, ⟨head, hhead⟩, slots, hslots⟩ := h 0 index .nil
    -- What a reference leads to is one step closer to the bound.
    have hnext : ∀ next, .expression next ∈ slots → ∃ tree, Unfolds r next tree := by
      intro next hmem
      refine ih fun n target hchain => ?_
      obtain ⟨hle, hread⟩ :=
        h (n + 1) target (.cons ((Regions.refers_iff_mem hslots).mpr hmem) hchain)
      exact ⟨Nat.le_of_succ_le_succ hle, hread⟩
    obtain ⟨trees, htrees⟩ := exists_slotsUnfold hnext
    exact ⟨_, .node hhead hslots htrees⟩

/-- An expression unfolds exactly if all that is reached from it is readable and
chains of references do not go on for ever. -/
theorem exists_unfolds_iff {index : Nat} :
    (∃ tree, Unfolds r index tree) ↔
      ∃ bound, ∀ n target, r.Chain n index target → n ≤ bound ∧ r.Readable target := by
  constructor
  · rintro ⟨tree, h⟩
    exact ⟨tree.nesting, fun n target hchain => ⟨h.chain_le hchain, h.readable hchain⟩⟩
  · rintro ⟨bound, h⟩
    exact exists_unfolds_of_bound h

end FlatTree
