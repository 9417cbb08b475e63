import FlatTree.Package.Column
import FlatTree.Proofs.View.Interchange

/-!
# Sums in buffers that answer alike

A sum over a column goes from the root to the cells by lookups alone, so buffers that
answer alike have it in the same place and get the same numbers there.

- `FoundOn`: two searches find the same expression in two buffers.
- `Package.tableView_on`: the table of a package is found in the same expression.
- `Package.sumView_on`: the sums are the same.
-/

namespace FlatTree

/-- A child that is an expression is the expression of the same number. -/
theorem View.child_toView_on {r s : Regions} (h : r.SameAnswers s) (index n : Nat) :
    ((View.mk s index).child n >>= Item.toView) =
      View.on s <$> ((View.mk r index).child n >>= Item.toView) := by
  rw [show (View.mk s index).child n = _ from (h.view index).child n, bind_map_left, map_bind]
  congr 1
  funext item
  cases item <;> rfl

/-- Two searches find the same expression, one in each of two buffers, or fail with the
same error. -/
structure FoundOn (r s : Regions) (d d' : Decoded View) : Prop where
  inside : d = View.on r <$> d
  eq : d' = View.on s <$> d

namespace FoundOn

variable {r s : Regions} {v : View}

/-- What is searched for in what was found is found alike. -/
theorem bind {d d' : Decoded View} {f f' : View → Decoded View} (h : FoundOn r s d d')
    (hf : ∀ index, FoundOn r s (f ⟨r, index⟩) (f' ⟨s, index⟩)) :
    FoundOn r s (d >>= f) (d' >>= f') := by
  obtain ⟨hinside, rfl⟩ := h
  cases hfound : d with
  | error e => exact ⟨rfl, rfl⟩
  | ok w =>
    obtain ⟨index, rfl⟩ := View.exists_eq_mk_of_on hinside hfound
    exact hf index

theorem lookup (h : r.SameAnswers s) (key : String) (index : Nat) :
    FoundOn r s ((View.mk r index).lookup key) ((View.mk s index).lookup key) :=
  ⟨((Regions.SameAnswers.refl r).view index).lookup key, (h.view index).lookup key⟩

theorem column (h : r.SameAnswers s) (name : String) (index : Nat) :
    FoundOn r s ((View.mk r index).column name) ((View.mk s index).column name) :=
  ⟨((Regions.SameAnswers.refl r).view index).column name, (h.view index).column name⟩

theorem child (h : r.SameAnswers s) (n index : Nat) :
    FoundOn r s ((View.mk r index).child n >>= Item.toView)
      ((View.mk s index).child n >>= Item.toView) :=
  ⟨View.child_toView_on (.refl r) index n, View.child_toView_on h index n⟩

end FoundOn

namespace Package

variable {r s : Regions}

/-- The table of a package is found in four steps. -/
theorem tableView_eq (root : View) :
    tableView root = root.lookup "resources" >>= fun resources =>
      (resources.child 0 >>= Item.toView) >>= fun list =>
        list.lookup "Object" >>= fun resource =>
          resource.lookup "path" >>= fun path => path.lookup "Table" := by
  simp only [tableView, bind_assoc]

/-- The table of a package is found in the same expression. -/
theorem tableView_on (h : r.SameAnswers s) (index : Nat) :
    FoundOn r s (tableView ⟨r, index⟩) (tableView ⟨s, index⟩) := by
  rw [tableView_eq, tableView_eq]
  refine (FoundOn.lookup h "resources" index).bind fun resources => ?_
  refine (FoundOn.child h 0 resources).bind fun list => ?_
  refine (FoundOn.lookup h "Object" list).bind fun resource => ?_
  exact (FoundOn.lookup h "path" resource).bind (FoundOn.lookup h "Table")

/-- **Buffers that answer alike have the same sums**, errors included. -/
theorem sumView_on (h : r.SameAnswers s) (index : Nat) (column : String) :
    sumView ⟨s, index⟩ column = sumView ⟨r, index⟩ column := by
  have hcells : FoundOn r s (tableView ⟨r, index⟩ >>= fun table => table.column column)
      (tableView ⟨s, index⟩ >>= fun table => table.column column) :=
    (tableView_on h index).bind (FoundOn.column h column)
  rw [sumView, sumView, ← bind_assoc, ← bind_assoc, hcells.eq, bind_map_left]
  cases hfound : tableView ⟨r, index⟩ >>= fun table => table.column column with
  | error e => rw [error_bind, error_bind]
  | ok cells =>
    obtain ⟨cells, rfl⟩ := View.exists_eq_mk_of_on hcells.inside hfound
    have hitems := (h.view cells).typedArguments
    simp only [ok_bind]
    rw [show (View.on s ⟨r, cells⟩).regions = s from rfl, hitems, hitems]

end Package

end FlatTree
