import FlatTree.Proofs.Document.Partition

/-!
# Runs found while writing

A writer finds runs as it goes. It has one counter for the stretch that ends at the slot it
fills, shared by all expressions that are open, and it goes back and changes tags that it has
written when a stretch turns out to be long enough. What it leaves in the slots of an
expression is what compressing the types of its arguments gives when they are all there.

- `Tree.map_code_depthFirstSlots`: the slots of arguments have their types.
- `StandsAt.extract_tags`: tags that stand one after another are a part of all tags.
- `Document.StoredIn.extract_tags`: the tags of an expression that is stored.
- `Document.exists_compressed`: the tags of every expression of a document.
-/

namespace FlatTree

/-- The slots of arguments have the types of the arguments, however the expressions among them
are numbered. -/
theorem Tree.map_code_depthFirstSlots (next : Nat) (trees : List Tree) :
    ((depthFirstSlots next trees).map fun s => s.type.code) =
      trees.map fun tree => tree.type.code := by
  induction trees generalizing next with
  | nil => rfl
  | cons tree rest ih =>
    cases tree with
    | scalar value =>
      rw [depthFirstSlots, List.map_cons, ih, List.map_cons]
      rfl
    | node head children =>
      rw [depthFirstSlots, List.map_cons, ih, List.map_cons]
      rfl

/-- Tag words that stand one after another are that part of the tags. -/
theorem StandsAt.extract_tags {raw : RawBuffer} {start : Nat} {words : List UInt64}
    (h : StandsAt raw.TagHolds start words) :
    (raw.tags.extract start (start + words.length)).toList = words := by
  refine List.ext_getElem? fun i => ?_
  rw [Array.getElem?_toList, Array.getElem?_extract]
  by_cases hi : i < words.length
  · have hword : raw.tags[start + i]? = some words[i] := h i _ (List.getElem?_eq_getElem hi)
    have hslot := (Array.getElem?_eq_some_iff.mp hword).1
    rw [if_pos (by omega), hword, List.getElem?_eq_getElem hi]
  · rw [if_neg (by omega), List.getElem?_eq_none (Nat.le_of_not_lt hi)]

namespace Document

variable {document : Document} {raw : RawBuffer}

/-- The tags of an expression that is stored are those of its arguments, compressed. -/
theorem StoredIn.extract_tags (h : document.StoredIn raw) {index : Nat} {node : PlacedNode}
    (hnode : document.placed[index]? = some node) :
    (raw.tags.extract node.start node.stop).toList =
      RunPolicy.document.compress (node.children.map fun child => child.type.code) := by
  have htags := (h.stores index node hnode).tags
  rw [Tree.map_code_depthFirstSlots] at htags
  have hpart := htags.extract_tags
  rw [RunPolicy.length_compress RunPolicy.valid_document, List.length_map] at hpart
  exact hpart

/-- **Finding runs while writing is compressing afterwards.** A document with a container for
its root is laid out, and in the child range of each of its expressions, which are numbered
depth first, stand the tag words that compressing the types of its arguments one after another
gives: word for word, also those inside a run, which nobody reads. -/
theorem exists_compressed (hroot : document.IsContainer)
    (hslots : document.census.slots < 2 ^ 64) :
    ∃ raw, document.layOut? = some raw ∧
      raw.exprs.size = (document.tree.depthFirst 0).length ∧
      ∀ index node, (document.tree.depthFirst 0)[index]? = some node →
        ∃ range, raw.regions.children index = .ok range ∧
          (raw.tags.extract range.start range.stop).toList =
            RunPolicy.document.compress (node.children.map fun child => child.type.code) := by
  obtain ⟨last, hwritten⟩ := exists_written hroot hslots
  have hstored := hwritten.storedIn hroot
  have hnumbered : document.placed.map PlacedNode.toLayeredNode = document.tree.depthFirst 0 :=
    map_place _ _
  refine ⟨last.raw, hwritten.layOut, ?_, fun index node hnode => ?_⟩
  · rw [hwritten.size_exprs, ← document.length_placed, ← hnumbered, List.length_map]
  · rw [← hnumbered, List.getElem?_map] at hnode
    obtain ⟨placed, hplaced, rfl⟩ := Option.map_eq_some_iff.mp hnode
    have hchildren := (hstored.stores index placed hplaced).children
      (show last.raw.args.size < 2 ^ 64 from hwritten.wrote.fits.args.symm ▸ hslots)
    rw [Tree.length_depthFirstSlots] at hchildren
    exact ⟨_, hchildren, hstored.extract_tags hplaced⟩

/-- In the list of the sample a run of five longs comes after a symbol; its length looks like
the tag of an expression. -/
theorem exists_compressed_sample :
    ∃ raw, sample.layOut? = some raw ∧ ∃ range, raw.regions.children 2 = .ok range ∧
      (raw.tags.extract range.start range.stop).toList = [4, 0x81, 5, 1, 1, 1] := by
  obtain ⟨raw, hraw, -, htags⟩ := @exists_compressed sample trivial (by decide)
  have hlist : ((sample.tree.depthFirst 0)[2]?).map (fun node =>
      node.children.map fun child => child.type.code) = some [4, 1, 1, 1, 1, 1] := by decide
  obtain ⟨node, hnode, hcodes⟩ := Option.map_eq_some_iff.mp hlist
  obtain ⟨range, hrange, hwords⟩ := htags 2 node hnode
  refine ⟨raw, hraw, range, hrange, ?_⟩
  rw [hwords, hcodes]
  decide +kernel

end Document

end FlatTree
