import FlatTree.Proofs.Build.Cut
import FlatTree.Proofs.Build.ShortRuns
import FlatTree.Proofs.Document.LayOut
import FlatTree.Proofs.Document.Steps
import FlatTree.Proofs.Document.Value

/-!
# Documents read back

A document is counted, laid out layer by layer with runs that are found on the
way, and decoded again. What comes back is the value that can be read off the
document.

- `Document.exists_toBytes?`: a document that words can count has a buffer, and
  `Document.lays_of_toBytes?`: in it its tree is laid out.
- `Document.unfolds_cut`: the buffer unfolds to the tree with all texts cut, if the
  lengths of its runs are read back.
- `Document.decodes_or_isShortRun`: so it is decoded, or else fails for a short run.
- `Document.decodeBuffer_toBytes?`: it is decoded to the value of the document.
-/

namespace FlatTree.Document

variable {document : Document} {bytes : ByteArray}

/-- Every expression of a document takes a slot. -/
theorem expressions_census_le (document : Document) :
    document.census.expressions ≤ document.census.slots := by
  have hcounts := document.adds_census
  rw [hcounts.expressions, hcounts.slots]
  exact Nat.add_le_add_left (Tree.allExpressions_le_sizes _) _

/-! ## The buffer of a document -/

/-- A document of which the root is an expression has a buffer, if a word counts its slots. -/
theorem exists_toBytes? (hroot : document.IsContainer) (hslots : document.census.slots < 2 ^ 64) :
    ∃ bytes, document.toBytes? = some bytes := by
  obtain ⟨head, children, htree⟩ := hroot.exists_node
  obtain ⟨raw, part, hlayOut, -⟩ := layOut?_spec htree hslots
  exact ⟨_, by rw [toBytes?, hlayOut]; rfl⟩

/-- The slots of a document whose buffer is in memory can be counted. -/
theorem slots_census_lt (hbytes : document.toBytes? = some bytes) (hsize : FitsMemory bytes) :
    document.census.slots < 2 ^ 64 := by
  obtain ⟨raw, hlayOut, rfl⟩ := Option.map_eq_some_iff.mp hbytes
  obtain ⟨last, hwrite, rfl⟩ := Option.map_eq_some_iff.mp hlayOut
  rw [Writer.writeTree_eq_steps] at hwrite
  have hargs := Writer.size_args_of_steps hwrite
  rw [Writer.new, Array.size_replicate] at hargs
  rw [← hargs]
  exact (RawBuffer.small_of_fitsMemory hsize).args

/-- The size of the buffer is known from what is counted, and from the heads and texts. -/
theorem size_toBytes? (hroot : document.IsContainer) (hslots : document.census.slots < 2 ^ 64)
    (hbytes : document.toBytes? = some bytes) :
    bytes.size = headerSize + document.census.slots * (2 * wordSize) +
      document.census.expressions * recordSize +
        (document.tree.steps.map Writer.Step.heapSize).sum := by
  obtain ⟨head, children, htree⟩ := hroot.exists_node
  obtain ⟨raw, part, hlayOut, -, hargs, htags, hexprs⟩ := layOut?_spec htree hslots
  obtain ⟨last, hwrite, heq⟩ := Option.map_eq_some_iff.mp hlayOut
  rw [Writer.writeTree_eq_steps] at hwrite
  have hheap := Writer.heapSize_of_steps hwrite
  rw [heq, Writer.new, ByteArray.size_empty, Nat.zero_add] at hheap
  rw [toBytes?, hlayOut] at hbytes
  cases hbytes
  rw [RawBuffer.size_toBytesWith, hargs, htags, hexprs, hheap, Nat.mul_left_comm]
  omega

/-- In the buffer of a document its tree is laid out. -/
theorem lays_of_toBytes? (hroot : document.IsContainer)
    (hbytes : document.toBytes? = some bytes) (hsize : FitsMemory bytes) :
    ∃ raw part, Regions.parse bytes = .ok raw.regions ∧ raw.Small ∧
      Lays raw .document part 0 document.tree := by
  obtain ⟨head, children, htree⟩ := hroot.exists_node
  obtain ⟨raw, part, hlayOut, hlays, hargs, htags, -⟩ :=
    layOut?_spec htree (slots_census_lt hbytes hsize)
  rw [toBytes?, hlayOut] at hbytes
  cases hbytes
  exact ⟨raw, part, RawBuffer.parse_toBytesWith (hargs.trans htags.symm) hsize,
    RawBuffer.small_of_fitsMemory hsize, hlays⟩

/-! ## What becomes of it -/

/-- The lengths of all runs are read back where half a word counts the slots. -/
theorem legible_of_slots_lt (h : document.census.slots < 2 ^ 32) :
    document.tree.Legible .document :=
  Tree.legible_of_size_lt RunPolicy.valid_document (slots_census document ▸ h)

/-- The buffer of a document unfolds to its tree with all texts cut, if the lengths of all
runs are read back. -/
theorem unfolds_cut (hroot : document.IsContainer) (hbytes : document.toBytes? = some bytes)
    (hsize : FitsMemory bytes) (hlegible : document.tree.Legible .document) :
    ∃ r, Regions.parse bytes = .ok r ∧ Unfolds r 0 document.tree.cut := by
  obtain ⟨raw, part, hparse, hsmall, hlays⟩ := lays_of_toBytes? hroot hbytes hsize
  exact ⟨raw.regions, hparse, hlays.cut.unfolds hsmall RunPolicy.valid_document
    ((Tree.legible_cut _).mpr hlegible) document.tree.storable_cut⟩

/-- **What becomes of a document** depends on the lengths of its runs: if all are read back it
is decoded, to the value of its tree with all texts cut, and else it fails for a run that is
too short. -/
theorem decodes_or_isShortRun {maxDepth : Nat} {value : Value} (hroot : document.IsContainer)
    (hbytes : document.toBytes? = some bytes) (hsize : FitsMemory bytes)
    (hnesting : document.tree.cut.nesting ≤ maxDepth)
    (hvalue : document.tree.cut.promote = some value) :
    (document.tree.Legible .document → Eager.decodeBuffer maxDepth bytes = .ok value) ∧
      (¬ document.tree.Legible .document →
        ∃ e, Eager.decodeBuffer maxDepth bytes = .error e ∧ e.IsShortRun) := by
  obtain ⟨raw, part, hparse, hsmall, hlays⟩ := lays_of_toBytes? hroot hbytes hsize
  rw [← Tree.legible_cut, Eager.decodeBuffer, hparse]
  exact hlays.cut.decodes_or_isShortRun hsmall RunPolicy.valid_document document.tree.storable_cut
    hnesting hvalue

/-- **A document is read back from its buffer.** A document of which the root is
an object, a list or a table has a buffer. If no text of it has a character of
code zero, it nests no deeper than the decoder allows and its slots can be
counted, the buffer is decoded to the value of the document. -/
theorem decodeBuffer_toBytes? (hroot : document.IsContainer) (hstorable : document.Storable)
    (hnesting : document.tree.nesting ≤ defaultMaxDepth)
    (hslots : document.census.slots < 2 ^ 32) :
    ∃ bytes, document.toBytes? = some bytes ∧
      (FitsMemory bytes → Eager.decodeBuffer defaultMaxDepth bytes = .ok document.value) := by
  obtain ⟨bytes, hbytes⟩ := exists_toBytes? hroot (Nat.lt_trans hslots (by decide))
  refine ⟨bytes, hbytes, fun hsize => ?_⟩
  have hcut := (storable_tree hstorable).cut_eq
  exact (decodes_or_isShortRun hroot hbytes hsize (hcut.symm ▸ hnesting)
    (hcut.symm ▸ promote_tree document)).1 (legible_of_slots_lt hslots)

/-- An object with a key twice, a list that ends with a run, and a table with
columns of one cell and of two. -/
def sample : Document :=
  object [
    ("items", list [symbol "True", long 1, long 2, long 3, long 4, long 5]),
    ("table", table [⟨"one", [.missing]⟩, ⟨"two", [.missing, .double 0]⟩]),
    ("items", string "again")]

theorem storable_sample : sample.Storable := by
  refine ⟨by decide, ⟨?_, trivial, trivial, trivial, trivial, trivial, trivial⟩, by decide, ?_,
    by decide, ?_, trivial⟩
  · show Heap.Storable "True"
    decide
  · refine List.forall_mem_cons.mpr ⟨⟨by decide, by decide⟩, ?_⟩
    exact List.forall_mem_singleton.mpr ⟨by decide, by decide⟩
  · show Heap.Storable "again"
    decide

/-- The sample is read back: its first `items` win, and its columns are lists of
their cells. -/
theorem decodeBuffer_sample :
    ∃ bytes, sample.toBytes? = some bytes ∧
      Eager.decodeBuffer defaultMaxDepth bytes = .ok (.object [
        ("items", .list [.scalar (.symbol "True"), .scalar (.long 1), .scalar (.long 2),
          .scalar (.long 3), .scalar (.long 4), .scalar (.long 5)]),
        ("table", .table [
          ("one", .list [.scalar (.symbol "Missing")]),
          ("two", .list [.scalar (.symbol "Missing"), .scalar (.double 0)])])]) := by
  obtain ⟨bytes, hbytes, hdecode⟩ :=
    @decodeBuffer_toBytes? sample trivial storable_sample (by decide) (by decide)
  have hsize : sample.toBytes?.map ByteArray.size = some 583 := by
    decide +kernel
  have hfits : FitsMemory bytes := by
    rw [hbytes] at hsize
    rw [FitsMemory, show bytes.size = 583 from Option.some.inj hsize]
    decide
  exact ⟨bytes, hbytes, hdecode hfits⟩

end FlatTree.Document
