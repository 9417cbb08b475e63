import FlatTree.Proofs.Build.BreadthFirst
import FlatTree.Proofs.Decode.Eager
import FlatTree.Proofs.View.Unfold

/-!
# Trees read back

Whatever runs it is written with, the buffer of a tree gives the tree back: raw,
when its root is drained, and promoted, when it is decoded. Both readings rest on
`Tree.parse_toBytes`: the buffer splits, and unfolds to the tree.
-/

namespace FlatTree

namespace Tree

variable {policy : RunPolicy} {head : String} {children : List Tree}

/-- The buffer of a tree splits into regions that unfold to the tree, and has at
least as many expressions as the tree has levels. -/
theorem parse_toBytes (hvalid : policy.Valid) (hstorable : (node head children).Storable)
    (hslots : (node head children).size < 2 ^ 32)
    (hsize : FitsMemory ((node head children).toBytes policy)) :
    ∃ r, Regions.parse ((node head children).toBytes policy) = .ok r ∧
      Unfolds r 0 (node head children) ∧ (node head children).levels ≤ r.exprCount := by
  have hparallel := (layOut_addsAll hvalid head children).parallel
  have hheap := Nat.lt_of_le_of_lt (RawBuffer.size_strings_le (0, 0)) hsize
  refine ⟨_, RawBuffer.parse_toBytesWith hparallel hsize,
    unfolds_layOut hvalid hstorable hslots hheap, ?_⟩
  have hlevels := levelsAll_le_length_breadthFirst [⟨head, children⟩]
  rw [RawBuffer.exprCount_regions, size_exprs_layOut hvalid]
  rw [List.map_singleton, levelsAll_cons, levelsAll_nil, Nat.max_zero] at hlevels
  exact hlevels

/-- What the buffer of a tree is decoded to. -/
theorem decodeBuffer_toBytes (hvalid : policy.Valid) (hstorable : (node head children).Storable)
    (hslots : (node head children).size < 2 ^ 32)
    (hsize : FitsMemory ((node head children).toBytes policy)) (maxDepth : Nat) (value : Value) :
    Eager.decodeBuffer maxDepth ((node head children).toBytes policy) = .ok value ↔
      (node head children).nesting ≤ maxDepth ∧ (node head children).promote = some value := by
  obtain ⟨r, hparse, hunfolds, -⟩ := parse_toBytes hvalid hstorable hslots hsize
  rw [Eager.decodeBuffer_eq_ok]
  constructor
  · rintro ⟨r', tree, hparse', htree, hrest⟩
    rw [hparse] at hparse'
    cases hparse'
    rw [htree.unique hunfolds] at hrest
    exact hrest
  · intro h
    exact ⟨r, _, hparse, hunfolds, h⟩

/-- **A tree is read back from its buffer**, with and without runs. The root has
its head and is drained to its children; and decoding, whatever its limit,
succeeds exactly on trees that nest no deeper and obey the rule for entries, with
their promotion as the value. -/
theorem roundTrip_toBytes (hvalid : policy.Valid) (hstorable : (node head children).Storable)
    (hslots : (node head children).size < 2 ^ 32)
    (hsize : FitsMemory ((node head children).toBytes policy)) :
    (∃ root, View.root ((node head children).toBytes policy) = .ok root ∧
      root.head = .ok head ∧ root.drain = .ok children) ∧
    ∀ maxDepth,
      ((∃ value, Eager.decodeBuffer maxDepth ((node head children).toBytes policy) = .ok value) ↔
        (node head children).nesting ≤ maxDepth ∧ (node head children).Promotable) ∧
      ∀ value, Eager.decodeBuffer maxDepth ((node head children).toBytes policy) = .ok value →
        (node head children).promote = some value := by
  obtain ⟨r, hparse, hunfolds, hlevels⟩ := parse_toBytes hvalid hstorable hslots hsize
  have hdecode := decodeBuffer_toBytes hvalid hstorable hslots hsize
  constructor
  · obtain ⟨hhead, held, hheld, htrees⟩ := unfolds_node.mp hunfolds
    obtain ⟨record, hrecord, -⟩ := bind_eq_ok.mp hhead
    obtain ⟨hview, hdrain⟩ := View.drain_eq_ok hunfolds (Nat.le_of_succ_le hlevels)
    refine ⟨⟨r, 0⟩, ?_, hview, hdrain⟩
    rw [View.root, hparse]
    exact bind_pure_eq_ok.mpr ⟨record, hrecord, rfl⟩
  · intro maxDepth
    refine ⟨?_, fun value h => ((hdecode maxDepth value).mp h).2⟩
    rw [← isSome_promote_iff]
    constructor
    · rintro ⟨value, h⟩
      obtain ⟨hnesting, hpromote⟩ := (hdecode maxDepth value).mp h
      exact ⟨hnesting, hpromote ▸ rfl⟩
    · rintro ⟨hnesting, hpromote⟩
      obtain ⟨value, hvalue⟩ := Option.isSome_iff_exists.mp hpromote
      exact ⟨value, (hdecode maxDepth value).mpr ⟨hnesting, hvalue⟩⟩

/-- Two columns, the first of which is a run if runs may be of two slots. -/
def sampleColumns : List Tree :=
  [node "a" [scalar (.long 1), scalar (.long 2)], node "b" [scalar (.string "x")]]

/-- A table with a run is read back, and it nests one level deep. -/
theorem roundTrip_sampleColumns :
    (∃ root, View.root ((node "Table" sampleColumns).toBytes ⟨some 2, true⟩) = .ok root ∧
      root.head = .ok "Table" ∧ root.drain = .ok sampleColumns) ∧
    (∃ value,
      Eager.decodeBuffer 1 ((node "Table" sampleColumns).toBytes ⟨some 2, true⟩) = .ok value) ∧
    ¬ ∃ value,
      Eager.decodeBuffer 0 ((node "Table" sampleColumns).toBytes ⟨some 2, true⟩) = .ok value := by
  have hvalid : RunPolicy.Valid ⟨some 2, true⟩ := by
    intro minimum h
    cases h
    exact Nat.le_refl 2
  have hstorable : (node "Table" sampleColumns).Storable := by
    refine ⟨by decide, ⟨by decide, trivial, trivial, trivial⟩, ⟨by decide, ?_, trivial⟩, trivial⟩
    show Scalar.Storable (.string "x")
    decide
  have hslots : (node "Table" sampleColumns).size < 2 ^ 32 := by decide
  have hsize : FitsMemory ((node "Table" sampleColumns).toBytes ⟨some 2, true⟩) := by
    unfold FitsMemory
    decide +kernel
  obtain ⟨hroot, hdecode⟩ := roundTrip_toBytes hvalid hstorable hslots hsize
  have hpromotable : (node "Table" sampleColumns).Promotable :=
    (isSome_promote_iff _).mp rfl
  exact ⟨hroot, (hdecode 1).1.mpr ⟨by decide, hpromotable⟩,
    fun h => absurd ((hdecode 0).1.mp h).1 (by decide)⟩

end Tree

end FlatTree
