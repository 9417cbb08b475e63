import FlatTree.Proofs.Build.BreadthFirst
import FlatTree.Proofs.View.Interchange

/-!
# Runs are transparent

A tree may be laid out with runs of any length or with none. That concerns the tags
alone: records, words and texts are the same, and expanded so are the types. Hence
all layouts of a tree are interchangeable.

- `Layout.untagged`: what is laid out, less its tags.
- `Tree.interchangeable_layOut`: two layouts of a tree are interchangeable.
- `runs_transparent`: interchangeable buffers answer alike, and the layouts of a tree
  are among them.
-/

namespace FlatTree

/-! ## Layouts without their tags -/

/-- The regions of a buffer, less its tags. -/
def RawBuffer.untagged (raw : RawBuffer) : RawBuffer := { raw with tags := #[] }

namespace Layout

/-- What is laid out, less its tags. -/
def untagged (l : Layout) : Layout := { l with raw := l.raw.untagged }

theorem untagged_addChild (l : Layout) (child : Tree) :
    (l.addChild child).untagged = l.untagged.addChild child := by
  cases child with
  | scalar value => cases value <;> rfl
  | node head children => rfl

theorem untagged_foldl_addChild (children : List Tree) (l : Layout) :
    (children.foldl addChild l).untagged = children.foldl addChild l.untagged := by
  induction children generalizing l with
  | nil => rfl
  | cons child rest ih => rw [List.foldl_cons, List.foldl_cons, ih, untagged_addChild]

/-- Runs make no difference to anything but the tags. -/
theorem untagged_addNode (p q : RunPolicy) (l : Layout) (node : HeadedNode) :
    (l.addNode p node).untagged = (l.untagged.addNode q node).untagged := by
  have hchildren := untagged_foldl_addChild node.children
    { l with raw := l.raw.pushText node.head }
  have hstart : { l.untagged with raw := l.untagged.raw.pushText node.head } =
      Layout.untagged { l with raw := l.raw.pushText node.head } := rfl
  rw [addNode, addNode, hstart, ← hchildren]
  rfl

theorem untagged_foldl_addNode (p q : RunPolicy) {l l' : Layout} (h : l.untagged = l'.untagged)
    (nodes : List HeadedNode) :
    (nodes.foldl (addNode p) l).untagged = (nodes.foldl (addNode q) l').untagged := by
  induction nodes generalizing l l' with
  | nil => exact h
  | cons node rest ih =>
    refine ih ?_
    rw [untagged_addNode p p, h, ← untagged_addNode q p]

end Layout

namespace Tree

variable {p q : RunPolicy} {head : String} {children : List Tree}

theorem untagged_layOut (p q : RunPolicy) (tree : Tree) :
    (tree.layOut p).untagged = (tree.layOut q).untagged :=
  congrArg Layout.raw (Layout.untagged_foldl_addNode p q rfl _)

/-- Every expression of a buffer has its children where they were laid out, and they
have their types there. -/
theorem exists_slots_of_children (hp : p.Valid) (hslots : (node head children).size < 2 ^ 32)
    {index : Nat} {range : SlotRange}
    (h : ((node head children).layOut p).regions.children index = .ok range) :
    ∃ first, (breadthFirst [⟨head, children⟩])[index]? = some first ∧
      ((node head children).layOut p).regions.Expands range
        (((slots (1 + numberedBefore (breadthFirst [⟨head, children⟩]) index)
          first.children).map Slot.type).zipIdx range.start) := by
  have hargs := @size_args_layOut p head children hp
  obtain ⟨record, hrecord, -⟩ := bind_eq_ok.mp h
  have hindex := (Array.getElem?_eq_some_iff.mp (RawBuffer.expression_regions.mp hrecord)).1
  rw [size_exprs_layOut hp] at hindex
  obtain ⟨start, hstores⟩ := (layOut_addsAll hp head children).stores index _
    (List.getElem?_eq_getElem hindex)
  rw [show Layout.initial.raw.exprs.size = 0 from rfl, Nat.zero_add] at hstores
  have hchildren := hstores.children (hargs ▸ Nat.lt_trans hslots (by decide))
  rw [show ((node head children).layOut p).regions.children index = _ from hchildren] at h
  cases h
  exact ⟨_, List.getElem?_eq_getElem hindex,
    hstores.expands hp (hstores.legible hp (hargs ▸ hslots))⟩

/-- **The layouts of a tree are interchangeable**, whatever runs they are written
with. -/
theorem interchangeable_layOut (hp : p.Valid) (hq : q.Valid)
    (hslots : (node head children).size < 2 ^ 32) :
    ((node head children).layOut p).regions.Interchangeable
      ((node head children).layOut q).regions := by
  have huntagged := untagged_layOut p q (node head children)
  have hwords : ∀ slot, ((node head children).layOut p).regions.argWord slot =
      ((node head children).layOut q).regions.argWord slot :=
    fun slot => congrArg (fun raw => raw.regions.argWord slot) huntagged
  refine ⟨congrArg (fun raw => raw.regions.argCount) huntagged,
    congrArg (fun raw => raw.regions.exprs) huntagged,
    congrArg (fun raw => raw.regions.strings) huntagged, ?_, ?_⟩
  · intro index range hrange
    have hrange' : ((node head children).layOut q).regions.children index = .ok range :=
      (congrArg (fun raw => raw.regions.children index) huntagged).symm.trans hrange
    obtain ⟨first, hfirst, hplaces⟩ := exists_slots_of_children hp hslots hrange
    obtain ⟨first', hfirst', hplaces'⟩ := exists_slots_of_children hq hslots hrange'
    rw [hfirst] at hfirst'
    cases hfirst'
    exact ⟨_, hplaces, hplaces'⟩
  · intro slot word word' hword hword'
    rw [hwords, hword'] at hword
    cases hword
    exact .inl rfl

/-- Whatever stands in the free words of its header, the buffer of a tree splits into
the regions that were laid out. -/
theorem parse_layOut (hp : p.Valid) (hslots : (node head children).size < 2 ^ 32)
    (reserved : UInt64 × UInt64) :
    Regions.parse (((node head children).layOut p).toBytesWith reserved) =
      .ok ((node head children).layOut p).regions := by
  have hargs := @size_args_layOut p head children hp
  have hexprs := @size_exprs_layOut_le p head children hp
  refine RawBuffer.parse_toBytesWith_of_counts (layOut_addsAll hp head children).parallel ?_
  rw [headerSize]
  omega

end Tree

/-- **Runs are transparent**, errors included. Interchangeable buffers answer alike,
whatever else is wrong with them; and so do the buffers of a tree, whatever runs they
are written with and whatever stands in the free words of their headers. -/
theorem runs_transparent :
    (∀ {r s : Regions}, r.Interchangeable s → r.SameAnswers s) ∧
      ∀ {p q : RunPolicy} {head : String} {children : List Tree}, p.Valid → q.Valid →
        (Tree.node head children).size < 2 ^ 32 → ∀ reserved reserved', ∃ r s,
          Regions.parse (((Tree.node head children).layOut p).toBytesWith reserved) = .ok r ∧
          Regions.parse (((Tree.node head children).layOut q).toBytesWith reserved') = .ok s ∧
          r.SameAnswers s :=
  ⟨fun h => h.sameAnswers, fun hp hq hslots reserved reserved' =>
    ⟨_, _, Tree.parse_layOut hp hslots reserved, Tree.parse_layOut hq hslots reserved',
      (Tree.interchangeable_layOut hp hq hslots).sameAnswers⟩⟩

/-- A run of two truth values, and two references: to an expression of which neither
head nor children can be read, and to none. -/
def runOfBools : RawBuffer where
  args := #[0x101, 0x200, 1, 7]
  tags := #[0x80, 2, 5, 5]
  exprs := #[⟨0, 0, 4⟩, ⟨99, 3, 9⟩]
  strings := RawBuffer.textEntry "f"

/-- The same with a run of references, and other words for the truth values. -/
def runOfReferences : RawBuffer where
  args := #[1, 0, 1, 7]
  tags := #[0, 0, 0x85, 2]
  exprs := #[⟨0, 0, 4⟩, ⟨99, 3, 9⟩]
  strings := RawBuffer.textEntry "f"

/-- The two differ in nothing else. -/
theorem interchangeable_runOfBools :
    runOfBools.regions.Interchangeable runOfReferences.regions := by
  have hindex : ∀ {index range}, runOfBools.regions.children index = .ok range →
      index = 0 ∧ range = ⟨0, 4⟩ := by
    intro index range h
    obtain ⟨record, hrecord, -⟩ := bind_eq_ok.mp h
    have hlt : index < 2 :=
      (Array.getElem?_eq_some_iff.mp (RawBuffer.expression_regions.mp hrecord)).1
    have hfirst : runOfBools.regions.children 0 = .ok ⟨0, 4⟩ := by decide +kernel
    have hsecond : runOfBools.regions.children 1 = .error (.childrenOutOfRange 1 3 9 4) := by
      decide +kernel
    interval_cases index
    · rw [hfirst] at h
      cases h
      exact ⟨rfl, rfl⟩
    · rw [hsecond] at h
      cases h
  have hwalk : (Blocks.ofRange ⟨0, 4⟩).toList runOfBools.regions =
      [⟨.bool, ⟨0, 2⟩⟩, ⟨.expression, ⟨2, 3⟩⟩, ⟨.expression, ⟨3, 4⟩⟩].map .ok := by
    decide +kernel
  have hwalk' : (Blocks.ofRange ⟨0, 4⟩).toList runOfReferences.regions =
      [⟨.bool, ⟨0, 1⟩⟩, ⟨.bool, ⟨1, 2⟩⟩, ⟨.expression, ⟨2, 4⟩⟩].map .ok := by
    decide +kernel
  have honly : ∀ slot < 2, runOfBools.regions.OnlyBool slot := by
    intro slot hslot index range places type hrange hplaces hmem
    obtain ⟨rfl, rfl⟩ := hindex hrange
    rw [hplaces.unique ⟨_, hwalk, rfl⟩] at hmem
    interval_cases slot <;> revert hmem <;> cases type <;> decide
  refine ⟨by decide +kernel, rfl, rfl, ?_, ?_⟩
  · rintro index range hrange
    obtain ⟨rfl, rfl⟩ := hindex hrange
    exact ⟨_, ⟨_, hwalk, rfl⟩, ⟨_, hwalk', by decide⟩⟩
  · intro slot word word' hword hword'
    rw [RawBuffer.argWord_regions] at hword hword'
    have hslot : slot < 4 := (Array.getElem?_eq_some_iff.mp hword).1
    interval_cases slot <;> cases hword <;> cases hword'
    · exact .inr ⟨by decide, honly 0 (by decide)⟩
    · exact .inr ⟨by decide, honly 1 (by decide)⟩
    · exact .inl rfl
    · exact .inl rfl

/-- The two answer alike, and so do a list that is written as a run and the same list
without. -/
theorem runs_transparent_sample :
    runOfBools.regions.SameAnswers runOfReferences.regions ∧ ∃ r s,
      Regions.parse (((Tree.node "List" [.scalar (.long 1), .scalar (.long 2)]).layOut
        ⟨some 2, false⟩).toBytesWith (0, 0)) = .ok r ∧
      Regions.parse (((Tree.node "List" [.scalar (.long 1), .scalar (.long 2)]).layOut
        ⟨none, false⟩).toBytesWith (1, 2)) = .ok s ∧
      r.SameAnswers s := by
  refine ⟨runs_transparent.1 interchangeable_runOfBools, runs_transparent.2 ?_ ?_ (by decide) _ _⟩
  · intro minimum h
    cases h
    exact Nat.le_refl 2
  · intro minimum h
    cases h

end FlatTree
