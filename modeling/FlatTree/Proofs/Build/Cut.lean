import FlatTree.Proofs.Build.Laid

/-!
# Trees with texts of any kind

The heap ends a text at its first character of code zero. So a tree with such
characters is not what its buffer holds, but the buffer holds a tree all the same:
the one of which every text is cut there.

- `Tree.cut`: a tree with its texts cut.
- `Tree.Storable.cut_eq`: without characters of code zero it is the tree itself.
- `Lays.cut`: where a tree is laid out, the one with its texts cut is laid out.
-/

namespace FlatTree

/-- A scalar with its text cut. -/
def Scalar.cut : Scalar → Scalar
  | .string text => .string (Heap.cut text)
  | .symbol name => .symbol (Heap.cut name)
  | value => value

/-- What a slot holds, with its text cut. -/
def Slot.cut : Slot → Slot
  | .scalar value => .scalar value.cut
  | .expression index => .expression index

theorem Scalar.storable_cut (value : Scalar) : value.cut.Storable := by
  cases value with
  | string text => exact Heap.storable_cut text
  | symbol name => exact Heap.storable_cut name
  | _ => trivial

theorem Scalar.Storable.cut_eq {value : Scalar} (h : value.Storable) : value.cut = value := by
  cases value with
  | string text => exact congrArg _ (Heap.Storable.cut_eq h)
  | symbol name => exact congrArg _ (Heap.Storable.cut_eq h)
  | _ => rfl

theorem Scalar.type_cut (value : Scalar) : value.cut.type = value.type := by
  cases value <;> rfl

theorem Slot.type_cut (s : Slot) : s.cut.type = s.type := by
  cases s with
  | scalar value => exact value.type_cut
  | expression index => rfl

/-- A word that stands for a text stands for it cut. -/
theorem Slot.StoredAs.cut {strings : ByteArray} {word : UInt64} {s : Slot}
    (h : s.StoredAs strings word) : s.cut.StoredAs strings word := by
  match s, h with
  | .scalar (.bool _), h => exact h
  | .scalar (.long _), h => exact h
  | .scalar (.double _), h => exact h
  | .scalar (.string _), ⟨offset, hword, h⟩ => exact ⟨offset, hword, h.cut⟩
  | .scalar (.symbol _), ⟨offset, hword, h⟩ => exact ⟨offset, hword, h.cut⟩
  | .expression _, h => exact h

namespace Tree

mutual

/-- A tree with its heads and texts cut. -/
def cut : Tree → Tree
  | scalar value => .scalar value.cut
  | node head children => .node (Heap.cut head) (cutAll children)

/-- Trees with their heads and texts cut. -/
def cutAll : List Tree → List Tree
  | [] => []
  | child :: rest => cut child :: cutAll rest

end

mutual

/-- The heap can hold what is cut. -/
theorem storable_cut : ∀ tree : Tree, tree.cut.Storable
  | scalar value => value.storable_cut
  | node head children => ⟨Heap.storable_cut head, allStorable_cutAll children⟩

theorem allStorable_cutAll : ∀ trees : List Tree, AllStorable (cutAll trees)
  | [] => trivial
  | child :: rest => ⟨storable_cut child, allStorable_cutAll rest⟩

end

mutual

/-- What the heap can hold is not cut. -/
theorem Storable.cut_eq : ∀ {tree : Tree}, tree.Storable → tree.cut = tree
  | scalar _, h => congrArg scalar (Scalar.Storable.cut_eq h)
  | node _ _, ⟨hhead, hchildren⟩ => by rw [cut, hhead.cut_eq, AllStorable.cutAll_eq hchildren]

theorem AllStorable.cutAll_eq : ∀ {trees : List Tree}, AllStorable trees → cutAll trees = trees
  | [], _ => rfl
  | _ :: _, ⟨hchild, hrest⟩ => by rw [cutAll, hchild.cut_eq, AllStorable.cutAll_eq hrest]

end

theorem type_cut (tree : Tree) : tree.cut.type = tree.type := by
  cases tree with
  | scalar value => exact value.type_cut
  | node head children => rfl

theorem map_type_cutAll : ∀ trees : List Tree, (cutAll trees).map type = trees.map type
  | [] => rfl
  | child :: rest => by
    rw [cutAll, List.map_cons, List.map_cons, type_cut, map_type_cutAll rest]

mutual

/-- Runs do not depend on texts. -/
theorem legible_cut {policy : RunPolicy} :
    ∀ tree : Tree, tree.cut.Legible policy ↔ tree.Legible policy
  | scalar _ => Iff.rfl
  | node _ children => by
    rw [cut, Legible, Legible, map_type_cutAll, allLegible_cutAll children]

theorem allLegible_cutAll {policy : RunPolicy} :
    ∀ trees : List Tree, AllLegible policy (cutAll trees) ↔ AllLegible policy trees
  | [] => Iff.rfl
  | child :: rest => and_congr (legible_cut child) (allLegible_cutAll rest)

end

end Tree

/-! ## Trees that are laid out -/

variable {raw : RawBuffer} {policy : RunPolicy} {part : Part}

/-- Where an expression is stored, it is stored with its head and its arguments cut. -/
theorem RawBuffer.Stores.cut {index start : Nat} {head : String} {held : List Slot}
    (h : raw.Stores policy index head start held) :
    raw.Stores policy index (Heap.cut head) start (held.map Slot.cut) := by
  have htypes : (held.map Slot.cut).map (fun s => s.type.code) = held.map fun s => s.type.code := by
    rw [List.map_map]
    exact List.map_congr_left fun s _ => congrArg SlotType.code s.type_cut
  refine ⟨?_, ?_, fun i s hs => ?_, ?_⟩
  · obtain ⟨offset, hholds, hrecord⟩ := h.record
    refine ⟨offset, hholds.cut, ?_⟩
    rw [List.length_map]
    exact hrecord
  · rw [List.length_map]
    exact h.fits
  · rw [List.getElem?_map] at hs
    obtain ⟨uncut, huncut, rfl⟩ := Option.map_eq_some_iff.mp hs
    obtain ⟨word, hword, hstored⟩ := h.args i uncut huncut
    exact ⟨word, hword, hstored.cut⟩
  · rw [htypes]
    exact h.tags

mutual

/-- **Where a tree is laid out, the tree with its texts cut is.** -/
theorem Lays.cut {index : Nat} {tree : Tree} (h : Lays raw policy part index tree) :
    Lays raw policy part index tree.cut := by
  cases h with
  | node hstores hindex hslots hchildren =>
    refine .node hstores.cut hindex ?_ hchildren.cut
    rw [List.length_map]
    exact hslots

theorem SlotsLay.cut {held : List Slot} {trees : List Tree}
    (h : SlotsLay raw policy part held trees) :
    SlotsLay raw policy part (held.map Slot.cut) (Tree.cutAll trees) := by
  cases h with
  | nil => exact .nil
  | scalar hrest => exact .scalar hrest.cut
  | expression htree hrest => exact .expression htree.cut hrest.cut

end

end FlatTree
