import Mathlib.Data.List.Nodup
import FlatTree.Proofs.Document.Filled
import FlatTree.Proofs.Document.References
import FlatTree.Proofs.Document.RoundTrip

/-!
# Census and writer agree

A census counts the slots of each layer, and the writer fills them. Where the
expressions of a document come is decided by the census alone: `place` puts them
in the windows of the layers. The writer puts them there, takes all the slots
that were counted, and ends with each cursor where the next layer starts.

- `Document.placed`: the expressions of a document with their slots.
- `Document.placed_window`, `placed_apart`, `exists_placed_iff`: they are in the
  windows of their layers, and share all slots but the first among them.
- `Document.perm_references`: each of them is referred to once.
- `Document.Partition`: what a buffer is like when a document was written.
- `Document.exists_partition`: writing a document does not fail, and ends there.
-/

namespace FlatTree

/-- Every slot after the first layer is on some layer. -/
theorem exists_layer_of_lt {layers : List Nat} {slot : Nat} (hfirst : layerStart layers 1 ≤ slot) :
    ∀ m, slot < layerStart layers (m + 1) →
      ∃ l, layerStart layers (l + 1) ≤ slot ∧ slot < layerStart layers (l + 2)
  | 0, h => absurd hfirst (Nat.not_le_of_lt h)
  | m + 1, h => by
    by_cases hm : slot < layerStart layers (m + 1)
    · exact exists_layer_of_lt hfirst m hm
    · exact ⟨m, Nat.le_of_not_lt hm, h⟩

namespace Document

variable {document : Document}

/-- The expressions of a document in the order in which they start, with the slots of
their arguments. -/
def placed (document : Document) : List PlacedNode :=
  place (fun l => layerStart document.census.layers (l + 1)) (document.tree.depthFirst 0)

/-! ## The windows of layers -/

/-- The layer of the root has its slot only. -/
theorem layerStart_one (document : Document) : layerStart document.census.layers 1 = 1 := by
  have hcount := document.adds_census.layers 0
  rw [if_pos rfl, Tree.allArgumentsOn_eq_zero _ (Nat.le_refl 0)] at hcount
  rw [layerStart_succ, hcount]
  rfl

/-- The arguments of the expressions on a layer fill the window of the next. -/
theorem layerStart_add (document : Document) (l : Nat) :
    layerStart document.census.layers (l + 1) +
        argumentsFrom l (document.tree.depthFirst 0) =
      layerStart document.census.layers (l + 2) := by
  have hcount := document.adds_census.layers (l + 1)
  have hnone : slotsOn Census.empty.layers (l + 1) = 0 := rfl
  rw [if_neg (Nat.succ_ne_zero l), hnone, Tree.allArgumentsOn, Tree.allArgumentsOn] at hcount
  rw [Tree.argumentsFrom_depthFirst, layerStart_succ document.census.layers (l + 1), hcount]
  omega

theorem length_placed (document : Document) :
    document.placed.length = document.census.expressions := by
  rw [placed, length_place, Tree.length_depthFirst, document.adds_census.expressions]
  exact (Nat.zero_add _).symm

/-- The arguments of an expression are in the window of the layer below its own. -/
theorem placed_window {node : PlacedNode} (h : node ∈ document.placed) :
    layerStart document.census.layers (node.layer + 1) ≤ node.start ∧
      node.stop ≤ layerStart document.census.layers (node.layer + 2) := by
  obtain ⟨hstart, hstop⟩ := place_within h
  rw [layerStart_add] at hstop
  exact ⟨hstart, hstop⟩

theorem placed_ordered (document : Document) :
    document.placed.Pairwise fun node other =>
      node.layer = other.layer → node.stop ≤ other.start :=
  place_ordered _ _

theorem placed_apart (document : Document) :
    document.placed.Pairwise fun node other =>
      node.stop ≤ other.start ∨ other.stop ≤ node.start := by
  refine place_apart fun l m hlt => ?_
  rw [layerStart_add]
  exact layerStart_mono (by omega)

/-- **The slots of the arguments are all slots but the first.** -/
theorem exists_placed_iff {slot : Nat} :
    (∃ node ∈ document.placed, node.start ≤ slot ∧ slot < node.stop) ↔
      1 ≤ slot ∧ slot < document.census.slots := by
  constructor
  · rintro ⟨node, hnode, hstart, hstop⟩
    obtain ⟨hlower, hupper⟩ := placed_window hnode
    have hone := document.layerStart_one
    have hmono : layerStart document.census.layers 1 ≤ layerStart document.census.layers _ :=
      layerStart_mono (Nat.le_add_left 1 node.layer)
    have htotal := layerStart_le_total document.census.layers (node.layer + 2)
    exact ⟨by omega, show slot < total document.census.layers by omega⟩
  · rintro ⟨hfirst, hslot⟩
    obtain ⟨l, hlower, hupper⟩ := @exists_layer_of_lt document.census.layers slot
      (document.layerStart_one.symm ▸ hfirst) document.census.layers.length (by
        rwa [layerStart_of_length_le (Nat.le_succ _)])
    rw [← layerStart_add] at hupper
    exact exists_place_of_lt hlower hupper

theorem mem_argumentSlots {placed : List PlacedNode} {slot : Nat} :
    slot ∈ Writer.argumentSlots placed ↔
      ∃ node ∈ placed, node.start ≤ slot ∧ slot < node.stop := by
  rw [Writer.argumentSlots, List.mem_flatMap]
  simp only [List.mem_range'_1, PlacedNode.stop]

/-- The first slot and those of all arguments are all slots, each of them once. -/
theorem perm_argumentSlots (hroot : 0 < document.census.slots) :
    (0 :: Writer.argumentSlots document.placed).Perm (List.range document.census.slots) := by
  have hnodup : (Writer.argumentSlots document.placed).Nodup := by
    refine List.nodup_flatMap.mpr ⟨fun node _ => List.nodup_range', ?_⟩
    refine document.placed_apart.imp fun {node other} hapart slot hslot hother => ?_
    rw [List.mem_range'_1] at hslot hother
    rw [PlacedNode.stop, PlacedNode.stop] at hapart
    omega
  have hzero : 0 ∉ Writer.argumentSlots document.placed := by
    rw [mem_argumentSlots, exists_placed_iff]
    omega
  refine (List.perm_ext_iff_of_nodup (hnodup.cons hzero) List.nodup_range).mpr fun slot => ?_
  rw [List.mem_cons, mem_argumentSlots, exists_placed_iff, List.mem_range]
  omega

/-- A slot is one of the arguments of one expression. -/
theorem placed_unique {index other : Nat} {node node' : PlacedNode} {slot : Nat}
    (h : document.placed[index]? = some node) (h' : document.placed[other]? = some node')
    (hstart : node.start ≤ slot) (hstop : slot < node.stop) (hstart' : node'.start ≤ slot)
    (hstop' : slot < node'.stop) : index = other := by
  obtain ⟨hindex, rfl⟩ := List.getElem?_eq_some_iff.mp h
  obtain ⟨hother, rfl⟩ := List.getElem?_eq_some_iff.mp h'
  have hapart := List.pairwise_iff_getElem.mp document.placed_apart
  rcases Nat.lt_trichotomy index other with hlt | heq | hgt
  · have := hapart index other hindex hother hlt
    omega
  · exact heq
  · have := hapart other index hother hindex hgt
    omega

/-! ## References -/

/-- The references to the expressions of a document, with their slots: the first slot
refers to the root. -/
def references (document : Document) : List (Nat × Nat) :=
  (0, 0) :: Tree.references 0 document.placed

/-- **Every expression is referred to once.** -/
theorem perm_references {head : String} {children : List Tree}
    (htree : document.tree = .node head children) :
    (document.references.map Prod.fst).Perm (List.range document.census.expressions) := by
  have hperm := Tree.perm_targets 0 0 [document.tree]
  have hroot : Tree.targets (Tree.depthFirstSlots 0 [document.tree]) = [0] := by
    rw [htree]
    rfl
  have hbelow : (Tree.references 0 document.placed).map Prod.fst =
      Tree.targetsBelow 0 (Tree.allDepthFirst 0 [document.tree]) := by
    rw [Tree.map_fst_references, placed, map_place, Tree.allDepthFirst, Tree.allDepthFirst,
      List.append_nil]
  have hcount : document.census.expressions = Tree.allExpressions [document.tree] :=
    document.adds_census.expressions.trans (Nat.zero_add _)
  rw [references, List.map_cons, hbelow, hcount, List.range_eq_range', ← List.singleton_append,
    ← hroot]
  exact hperm

theorem lt_of_mem_references {head : String} {children : List Tree}
    (htree : document.tree = .node head children) {target slot : Nat}
    (h : (target, slot) ∈ document.references) : target < document.census.expressions :=
  List.mem_range.mp ((perm_references htree).mem_iff.mp (List.mem_map_of_mem h))

theorem existsUnique_reference {head : String} {children : List Tree}
    (htree : document.tree = .node head children) {target : Nat}
    (htarget : target < document.census.expressions) :
    ∃! slot, (target, slot) ∈ document.references := by
  have hperm := perm_references htree
  have hnodup := hperm.nodup_iff.mpr List.nodup_range
  obtain ⟨⟨_, slot⟩, hslot, rfl⟩ :=
    List.mem_map.mp (hperm.mem_iff.mpr (List.mem_range.mpr htarget))
  exact ⟨slot, hslot, fun other hother =>
    congrArg Prod.snd (List.inj_on_of_nodup_map hnodup hother hslot rfl)⟩

/-- The expressions of a document are stored in a buffer where they are placed, and its
first slot refers to the first of them. -/
structure StoredIn (document : Document) (raw : RawBuffer) : Prop where
  root : raw.RefersTo 0 0
  stores : ∀ index node, document.placed[index]? = some node →
    raw.Stores .document index node.head node.start
      (Tree.depthFirstSlots (index + 1) node.children)
  tags : raw.tags.size = document.census.slots

namespace StoredIn

variable {raw : RawBuffer}

/-- No run goes on from one expression into the next. -/
theorem not_startsRun_before (h : document.StoredIn raw) {index : Nat} {node : PlacedNode}
    (hnode : document.placed[index]? = some node) (hchildren : node.children ≠ []) {before : Nat}
    {tag : UInt64} (hbefore : node.start = before + 1) (htag : raw.tags[before]? = some tag) :
    ¬ StartsRun tag := by
  have hlength := List.length_pos_iff.mpr hchildren
  cases before with
  | zero =>
    cases h.root.1.1.symm.trans htag
    exact not_startsRun_code .expression
  | succ before =>
    have hlt : before + 1 < document.census.slots := by
      rw [← h.tags]
      exact (Array.getElem?_eq_some_iff.mp htag).1
    obtain ⟨other, hother, hstart, hstop⟩ :=
      exists_placed_iff.mpr ⟨Nat.le_add_left 1 before, hlt⟩
    obtain ⟨k, hk⟩ := List.getElem?_of_mem hother
    have hheld := Tree.length_depthFirstSlots (k + 1) other.children
    -- The slot before is the last one of its expression: the next is not another of it.
    have hlast : other.start + other.children.length = before + 2 := by
      rw [PlacedNode.stop] at hstop
      refine Nat.le_antisymm (Nat.le_of_not_lt fun hlt => ?_) hstop
      have hsame := @placed_unique document k index other node (before + 2) hk hnode (by omega)
        (by rw [PlacedNode.stop]; omega) (by omega) (by rw [PlacedNode.stop]; omega)
      rw [hsame, hnode] at hk
      cases hk
      omega
    refine (h.stores k other hk).not_startsRun_last (i := before + 1 - other.start)
      (by omega) ?_
    rwa [Nat.add_sub_cancel' hstart]

/-- An argument refers to an expression if it is the expression. -/
theorem refersTo_argument (h : document.StoredIn raw) {head : String} {children : List Tree}
    (htree : document.tree = .node head children)
    (hwords : document.census.expressions < 2 ^ 64) {index i target : Nat} {node : PlacedNode}
    (hnode : document.placed[index]? = some node) (hi : i < node.children.length)
    (htarget : target < 2 ^ 64) :
    raw.RefersTo (node.start + i) target ↔
      (Tree.depthFirstSlots (index + 1) node.children)[i]? = some (.expression target) := by
  refine (h.stores index node hnode).refersTo_iff (fun before tag hbefore htag => ?_)
    (fun child hchild => ?_) (by rwa [Tree.length_depthFirstSlots]) htarget
  · exact h.not_startsRun_before hnode (List.length_pos_iff.mp (by omega)) hbefore htag
  · obtain ⟨k, hk⟩ := List.getElem?_of_mem hchild
    have hreference : (child, node.start + k) ∈ document.references :=
      List.mem_cons_of_mem _ (Tree.mem_references.mpr ⟨index, node, k, hnode, rfl, hk⟩)
    exact Nat.lt_trans (lt_of_mem_references htree hreference) hwords

/-- **The slots refer to the expressions as they are numbered**, and there are no other
references. -/
theorem refersTo_iff (h : document.StoredIn raw) {head : String} {children : List Tree}
    (htree : document.tree = .node head children)
    (hwords : document.census.expressions < 2 ^ 64) {slot target : Nat}
    (htarget : target < document.census.expressions) :
    raw.RefersTo slot target ↔ (target, slot) ∈ document.references := by
  have hsplit : (target, slot) ∈ document.references ↔ target = 0 ∧ slot = 0 ∨
      ∃ index node i, document.placed[index]? = some node ∧ slot = node.start + i ∧
        (Tree.depthFirstSlots (index + 1) node.children)[i]? = some (.expression target) := by
    rw [references, List.mem_cons, Prod.mk.injEq, Tree.mem_references]
  rw [hsplit]
  constructor
  · intro hrefers
    have hslot : slot < document.census.slots := by
      rw [← h.tags]
      exact (Array.getElem?_eq_some_iff.mp hrefers.1.1).1
    by_cases hzero : slot = 0
    · subst hzero
      have hwords' := congrArg UInt64.toNat (Option.some.inj (h.root.2.symm.trans hrefers.2))
      rw [UInt64.toNat_ofNat_of_lt' (show target < 2 ^ 64 by omega)] at hwords'
      exact .inl ⟨hwords'.symm, rfl⟩
    · obtain ⟨node, hmem, hstart, hstop⟩ :=
        exists_placed_iff.mpr ⟨Nat.pos_of_ne_zero hzero, hslot⟩
      obtain ⟨index, hnode⟩ := List.getElem?_of_mem hmem
      obtain ⟨i, rfl⟩ := Nat.exists_eq_add_of_le hstart
      refine .inr ⟨index, node, i, hnode, rfl, ?_⟩
      exact (h.refersTo_argument htree hwords hnode (Nat.lt_of_add_lt_add_left hstop)
        (by omega)).mp hrefers
  · rintro (⟨rfl, rfl⟩ | ⟨index, node, i, hnode, rfl, hheld⟩)
    · exact h.root
    · have hi := (List.getElem?_eq_some_iff.mp hheld).1
      rw [Tree.length_depthFirstSlots] at hi
      exact (h.refersTo_argument htree hwords hnode hi (by omega)).mpr hheld

end StoredIn

/-! ## Writing a document -/

/-- What a writer is left with when it has written a document: it has taken every slot
that was counted once and opened every expression that was counted, the arguments
of which divide all slots but the first among them, in the windows of their layers. -/
structure Partition (document : Document) (last : Writer) : Prop extends
    document.StoredIn last.raw where
  /-- The slots hold what was assigned to them, and each of them was assigned once. -/
  args : last.raw.args = ((Writer.new document.census).assignments document.tree.steps).foldl
    Writer.assign (Array.replicate document.census.slots 0)
  assigned : ((Writer.new document.census).assigned document.tree.steps).Perm
    (List.range document.census.slots)
  /-- The expressions are numbered as they start. -/
  opened : last.nextExpression = document.census.expressions
  numbered : document.placed.map PlacedNode.toLayeredNode = document.tree.depthFirst 0
  counted : document.placed.length = document.census.expressions
  ranges : ∀ index node, document.placed[index]? = some node →
    last.raw.regions.children index = .ok ⟨node.start, node.stop⟩
  /-- Every expression is referred to by one slot, the root by the first. -/
  referred : ∀ index < document.census.expressions, ∃! slot, last.raw.RefersTo slot index
  /-- Arguments of two expressions share no slot, and leave out the first one only. -/
  apart : document.placed.Pairwise fun node other =>
    node.stop ≤ other.start ∨ other.stop ≤ node.start
  covered : ∀ slot, (∃ node ∈ document.placed, node.start ≤ slot ∧ slot < node.stop) ↔
    1 ≤ slot ∧ slot < document.census.slots
  /-- They are in the window of the layer below, in the order of the document. -/
  window : ∀ node ∈ document.placed,
    layerStart document.census.layers (node.layer + 1) ≤ node.start ∧
      node.stop ≤ layerStart document.census.layers (node.layer + 2)
  ordered : document.placed.Pairwise fun node other =>
    node.layer = other.layer → node.stop ≤ other.start
  /-- Each cursor is where the window of its layer ends. -/
  cursors : last.cursors.size = document.census.layers.length ∧
    ∀ l < document.census.layers.length,
      last.cursors[l]? = some (layerStart document.census.layers (l + 2))

/-- The first slot refers to the root when a whole document is written. -/
theorem refersTo_root {head : String} {children : List Tree}
    (htree : document.tree = .node head children) {last : Writer}
    (h : Writer.Wrote document.census.layers (Writer.new document.census) 0 [] [document.tree]
      last) : last.raw.RefersTo 0 0 := by
  have hsegment := h.segment
  have hheld : ([] : List Slot) ++ Tree.depthFirstSlots 0 [document.tree] = [.expression 0] := by
    rw [htree]
    rfl
  have hnext : (Writer.new document.census).nextExpression = 0 := rfl
  rw [hnext, hheld] at hsegment
  obtain ⟨word, hword, hstored⟩ := hsegment.args 0 _ rfl
  cases hstored
  refine ⟨⟨?_, fun before _ hzero => by cases hzero⟩, hword⟩
  obtain ⟨closed, code, hends, htags⟩ := hsegment.tags
  -- The stretch at the end is of scalars, so it is empty.
  have hcodes : [SlotType.expression.code] = closed ++ List.replicate last.run code := hends.codes
  cases hrun : last.run with
  | zero =>
    rw [hrun, List.replicate_zero, List.append_nil] at hcodes htags
    have hcompress : RunPolicy.document.compress [SlotType.expression.code] =
        [SlotType.expression.code] := by
      have hone := @RunPolicy.compress_stretch .document SlotType.expression.code 0 []
        (fun h => by cases h)
      rw [RunPolicy.compress, List.append_nil, stretch_expression] at hone
      exact hone
    rw [← hcodes, hcompress] at htags
    exact htags 0 _ rfl
  | succ run =>
    have hlast := congrArg List.getLast? hcodes
    rw [hrun, List.getLast?_append, List.getLast?_replicate, if_neg (Nat.succ_ne_zero run)] at hlast
    exact absurd (Option.some.inj hlast).symm hends.scalar

/-- A writer at the end of a document, and what writing has done. -/
structure Written (document : Document) (last : Writer) : Prop where
  write : Writer.writeTree document.tree (Writer.new document.census) = some last
  wrote : Writer.Wrote document.census.layers (Writer.new document.census) 0 [] [document.tree]
    last
  filled : Writer.Filled document.census.layers (Writer.new document.census) 0 [document.tree] last

/-- The root is counted. -/
theorem expressions_census_pos (hroot : document.IsContainer) :
    0 < document.census.expressions := by
  obtain ⟨head, children, htree⟩ := hroot.exists_node
  rw [document.adds_census.expressions, htree, Tree.allExpressions, Tree.expressions]
  omega

/-- Writing a document of which the root is an expression comes to its end. -/
theorem exists_written (hroot : document.IsContainer) (hslots : document.census.slots < 2 ^ 64) :
    ∃ last, document.Written last := by
  have hready := Writer.ready_new (expressions_census_pos hroot)
  obtain ⟨last, hwrite, hwrote⟩ := Writer.writeTree_spec hslots document.tree hready
  exact ⟨last, hwrite, hwrote, Writer.writeTree_filled hslots document.tree hready hwrite⟩

/-- The places that are free at first are those of the layers. -/
theorem place_new : place (Writer.new document.census).free
    (Tree.allDepthFirst (Writer.new document.census).layer [document.tree]) = document.placed := by
  rw [show (Writer.new document.census).free = fun l => layerStart document.census.layers (l + 1)
    from funext (Writer.free_new document.census)]
  show place _ (document.tree.depthFirst 0 ++ []) = _
  rw [List.append_nil]
  rfl

namespace Written

variable {last : Writer}

theorem steps (h : document.Written last) :
    document.tree.steps.foldlM Writer.Step.run (Writer.new document.census) = some last := by
  rw [← Writer.writeTree_eq_steps, h.write]

theorem layOut (h : document.Written last) : document.layOut? = some last.raw := by
  rw [layOut?, h.write]
  rfl

theorem size_exprs (h : document.Written last) :
    last.raw.exprs.size = document.census.expressions := by
  rw [h.wrote.exprs]
  exact Array.size_replicate

theorem storedIn (h : document.Written last) (hroot : document.IsContainer) :
    document.StoredIn last.raw where
  root := by
    obtain ⟨head, children, htree⟩ := hroot.exists_node
    exact refersTo_root htree h.wrote
  stores index node hnode := by
    have hputs := (h.filled.puts index node (place_new.symm ▸ hnode)).stores
    rwa [show (Writer.new document.census).nextExpression + index = index from
      Nat.zero_add index] at hputs
  tags := h.wrote.fits.tags

/-- The cursor of a layer has moved past the arguments of all its expressions. -/
theorem cursors (h : document.Written last) {l : Nat} (hl : l < document.census.layers.length) :
    last.cursors[l]? = some (layerStart document.census.layers (l + 2)) := by
  have hcursor := Array.getElem?_eq_getElem (h.wrote.fits.cursors.symm ▸ hl)
  have hfree := h.wrote.free l
  rw [Writer.free_new, show (Writer.new document.census).layer = 0 from rfl,
    ← Tree.argumentsFrom_allDepthFirst, Tree.allDepthFirst, Tree.allDepthFirst,
    List.append_nil, layerStart_add, Writer.free, hcursor] at hfree
  rw [hcursor]
  exact congrArg some hfree

end Written

/-- **Census and writer agree**: a document is written without a step that fails, and
every slot and every expression that were counted are taken once, layer by layer. -/
theorem exists_partition (hroot : document.IsContainer) (hslots : document.census.slots < 2 ^ 64) :
    ∃ last, document.tree.steps.foldlM Writer.Step.run (Writer.new document.census) = some last ∧
      document.layOut? = some last.raw ∧ document.Partition last := by
  obtain ⟨head, children, htree⟩ := hroot.exists_node
  obtain ⟨last, hwritten⟩ := exists_written hroot hslots
  have hstored := hwritten.storedIn hroot
  have hpos := expressions_census_pos hroot
  have hle := document.expressions_census_le
  refine ⟨last, hwritten.steps, hwritten.layOut, ?_⟩
  exact
    { hstored with
      args := (Writer.args_of_steps hwritten.steps).1
      assigned := by
        have hassigned := hwritten.filled.assigned
        rw [place_new, Tree.allSteps, Tree.allSteps, List.append_nil] at hassigned
        exact hassigned.trans (perm_argumentSlots (by omega))
      opened := by
        rw [hwritten.wrote.next, document.adds_census.expressions]
        rfl
      numbered := map_place _ _
      counted := document.length_placed
      ranges := fun index node hnode => by
        have hchildren := (hstored.stores index node hnode).children
          (show last.raw.args.size < 2 ^ 64 from hwritten.wrote.fits.args.symm ▸ hslots)
        rwa [Tree.length_depthFirstSlots] at hchildren
      referred := fun index hindex => by
        simp only [hstored.refersTo_iff htree (by omega) hindex]
        exact existsUnique_reference htree hindex
      apart := document.placed_apart
      covered := fun _ => exists_placed_iff
      window := fun _ => placed_window
      ordered := document.placed_ordered
      cursors := ⟨hwritten.wrote.fits.cursors, fun _ => hwritten.cursors⟩ }

/-- In the sample the list comes second and has its arguments on the fourth layer. The
length of its run looks like the tag of an expression. -/
theorem exists_partition_sample :
    ∃ last, sample.tree.steps.foldlM Writer.Step.run (Writer.new sample.census) = some last ∧
      sample.layOut? = some last.raw ∧ sample.Partition last ∧
      sample.placed.map (fun node => (node.start, node.stop)) =
        [(1, 4), (4, 5), (7, 13), (5, 6), (13, 15), (15, 16), (16, 18), (6, 7)] := by
  obtain ⟨last, hsteps, hlast, hpartition⟩ := @exists_partition sample trivial (by decide)
  exact ⟨last, hsteps, hlast, hpartition, by decide⟩

end Document

end FlatTree
