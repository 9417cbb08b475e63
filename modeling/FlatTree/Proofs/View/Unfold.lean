import FlatTree.View.Unfold
import FlatTree.Proofs.View.Traversal
import FlatTree.Proofs.Decode.Unfolding

/-!
# Draining a view

Draining the arguments of a view, and of all views among them, gives the tree to
which its expression unfolds. One level of nesting for every expression of the
buffer is enough for a tree that nests no deeper.

- `View.unfold_eq_ok`: the tree of an expression, with so many levels left.
- `View.drain_eq_ok`: the raw children of a view.
- `View.unfolds_iff_drain`: a view has raw children exactly if its expression
  unfolds, as no tree nests deeper than the buffer has expressions.
-/

namespace FlatTree.View

variable {r : Regions} {levels : Nat}

section DrainItems

variable {expand : Nat → Decoded Tree}

theorem drainItems_scalar {value : Scalar} {rest : List (Decoded Slot)} :
    drainItems expand (.ok (.scalar value) :: rest) =
      drainItems expand rest >>= fun others => pure (.scalar value :: others) :=
  rfl

theorem drainItems_expression {index : Nat} {rest : List (Decoded Slot)} :
    drainItems expand (.ok (.expression index) :: rest) =
      expand index >>= fun tree => drainItems expand rest >>= fun others =>
        pure (tree :: others) :=
  rfl

/-- Nothing is drained from items of which one is an error. -/
theorem exists_held_of_drainItems :
    ∀ {items : List (Decoded Slot)} {trees : List Tree}, drainItems expand items = .ok trees →
      ∃ held : List Slot, items = held.map .ok
  | [], _, _ => ⟨[], rfl⟩
  | .error _ :: _, _, h => by cases h
  | .ok (.scalar value) :: rest, _, h => by
    rw [drainItems_scalar] at h
    obtain ⟨others, hothers, -⟩ := bind_pure_eq_ok.mp h
    obtain ⟨held, rfl⟩ := exists_held_of_drainItems hothers
    exact ⟨.scalar value :: held, rfl⟩
  | .ok (.expression index) :: rest, _, h => by
    rw [drainItems_expression] at h
    obtain ⟨tree, -, h⟩ := bind_eq_ok.mp h
    obtain ⟨others, hothers, -⟩ := bind_pure_eq_ok.mp h
    obtain ⟨held, rfl⟩ := exists_held_of_drainItems hothers
    exact ⟨.expression index :: held, rfl⟩

/-- Drained slots are the trees to which they unfold. -/
theorem drainItems_map_ok
    (h : ∀ {index : Nat} {tree : Tree},
      expand index = .ok tree ↔ Unfolds r index tree ∧ tree.levels ≤ levels) :
    ∀ {held : List Slot} {trees : List Tree},
      drainItems expand (held.map .ok) = .ok trees ↔
        SlotsUnfold r held trees ∧ Tree.levelsAll trees ≤ levels
  | [], trees => by
    rw [List.map_nil, drainItems, pure_eq_ok]
    constructor
    · rintro rfl
      exact ⟨.nil, Nat.zero_le _⟩
    · rintro ⟨htrees, -⟩
      cases htrees
      rfl
  | .scalar value :: held, trees => by
    rw [List.map_cons, drainItems_scalar, bind_pure_eq_ok]
    constructor
    · rintro ⟨others, hothers, rfl⟩
      obtain ⟨htrees, hlevels⟩ := (drainItems_map_ok h).mp hothers
      exact ⟨.scalar htrees, Nat.max_le.mpr ⟨Nat.zero_le _, hlevels⟩⟩
    · rintro ⟨htrees, hlevels⟩
      cases htrees with
      | scalar htrees =>
        exact ⟨_, (drainItems_map_ok h).mpr ⟨htrees, (Nat.max_le.mp hlevels).2⟩, rfl⟩
  | .expression index :: held, trees => by
    rw [List.map_cons, drainItems_expression]
    constructor
    · intro hdrain
      obtain ⟨tree, htree, hdrain⟩ := bind_eq_ok.mp hdrain
      obtain ⟨others, hothers, rfl⟩ := bind_pure_eq_ok.mp hdrain
      obtain ⟨htrees, hlevels⟩ := (drainItems_map_ok h).mp hothers
      obtain ⟨hunfolds, hlevel⟩ := h.mp htree
      exact ⟨.expression hunfolds htrees, Nat.max_le.mpr ⟨hlevel, hlevels⟩⟩
    · rintro ⟨htrees, hlevels⟩
      cases htrees with
      | expression htree htrees =>
        obtain ⟨hlevel, hlevels⟩ := Nat.max_le.mp hlevels
        exact bind_eq_ok.mpr ⟨_, h.mpr ⟨htree, hlevel⟩, bind_pure_eq_ok.mpr
          ⟨_, (drainItems_map_ok h).mpr ⟨htrees, hlevels⟩, rfl⟩⟩

/-- Drained arguments are the trees to which the child slots unfold. That the
cursor also wants the expressions among them to exist makes no difference, as
they unfold. -/
theorem drainItems_arguments_eq_ok
    (h : ∀ {index : Nat} {tree : Tree},
      expand index = .ok tree ↔ Unfolds r index tree ∧ tree.levels ≤ levels)
    {index : Nat} {trees : List Tree} :
    drainItems expand ((View.mk r index).arguments.toList r) = .ok trees ↔
      ∃ held, r.childSlots index = .ok held ∧ SlotsUnfold r held trees ∧
        Tree.levelsAll trees ≤ levels := by
  constructor
  · intro hdrain
    obtain ⟨held, hheld⟩ := exists_held_of_drainItems hdrain
    rw [hheld] at hdrain
    exact ⟨held, (Cursor.toList_start_eq_map_ok.mp hheld).1, (drainItems_map_ok h).mp hdrain⟩
  · rintro ⟨held, hheld, htrees, hlevels⟩
    have hitems : (View.mk r index).arguments.toList r = held.map .ok :=
      Cursor.toList_start_eq_map_ok.mpr ⟨hheld, htrees.exists_record⟩
    rw [hitems]
    exact (drainItems_map_ok h).mpr ⟨htrees, hlevels⟩

end DrainItems

/-- The raw tree of an expression, by unfolding. -/
theorem unfold_eq_ok :
    ∀ {levels index : Nat} {tree : Tree},
      unfold r levels index = .ok tree ↔ Unfolds r index tree ∧ tree.levels ≤ levels
  | 0, index, tree => by
    refine iff_of_false (fun h => by cases h) ?_
    rintro ⟨htree, hlevels⟩
    -- Whatever unfolds has a level of its own.
    obtain ⟨_, _, _, rfl, -⟩ := htree.exists_node
    exact Nat.not_succ_le_zero _ hlevels
  | levels + 1, index, tree => by
    show ((View.mk r index).head >>= fun head =>
      drainItems (unfold r levels) ((View.mk r index).arguments.toList r) >>= fun trees =>
        pure (Tree.node head trees)) = .ok tree ↔ _
    constructor
    · intro h
      obtain ⟨head, hhead, h⟩ := bind_eq_ok.mp h
      obtain ⟨trees, htrees, rfl⟩ := bind_pure_eq_ok.mp h
      obtain ⟨held, hheld, htrees, hlevels⟩ := (drainItems_arguments_eq_ok unfold_eq_ok).mp htrees
      exact ⟨.node (Decoded.blaming_eq_ok.mp hhead) hheld htrees, Nat.succ_le_succ hlevels⟩
    · rintro ⟨htree, hlevels⟩
      obtain ⟨head, held, trees, rfl, hhead, hheld, htrees⟩ := htree.exists_node
      refine bind_eq_ok.mpr ⟨head, Decoded.blaming_eq_ok.mpr hhead, bind_pure_eq_ok.mpr
        ⟨trees, ?_, rfl⟩⟩
      exact (drainItems_arguments_eq_ok unfold_eq_ok).mpr
        ⟨held, hheld, htrees, Nat.le_of_succ_le_succ hlevels⟩

/-- A view of an expression that unfolds, no deeper than the buffer has
expressions, is drained to the children of its tree. -/
theorem drain_eq_ok {index : Nat} {head : String} {trees : List Tree}
    (h : Unfolds r index (.node head trees)) (hlevels : Tree.levelsAll trees ≤ r.exprCount) :
    (View.mk r index).head = .ok head ∧ (View.mk r index).drain = .ok trees := by
  obtain ⟨hhead, held, hheld, htrees⟩ := unfolds_node.mp h
  exact ⟨Decoded.blaming_eq_ok.mpr hhead,
    (drainItems_arguments_eq_ok unfold_eq_ok).mpr ⟨held, hheld, htrees, hlevels⟩⟩

/-- **A view unfolds exactly if it is drained**: the levels for which draining has
room are enough for every tree. -/
theorem unfolds_iff_drain {v : View} {head : String} {trees : List Tree} :
    Unfolds v.regions v.index (.node head trees) ↔ v.head = .ok head ∧ v.drain = .ok trees := by
  constructor
  · intro h
    exact drain_eq_ok h (Nat.le_of_succ_le h.levels_le_exprCount)
  · rintro ⟨hhead, hdrain⟩
    obtain ⟨held, hheld, htrees, -⟩ := (drainItems_arguments_eq_ok unfold_eq_ok).mp hdrain
    exact unfolds_node.mpr ⟨Decoded.blaming_eq_ok.mp hhead, held, hheld, htrees⟩

end FlatTree.View
