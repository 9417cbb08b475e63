import FlatTree.Proofs.Document.Placement
import FlatTree.Proofs.Document.Writer

/-!
# A whole tree is written

The layers of a buffer are filled at the same time, each of them from its start
to its end. What is complete at some moment are the slots below the cursors, and
the expressions that have ended. No step touches these: a step changes the
segment of the current expression only, and that is where the cursor of its layer
has not come yet.

- `Writer.done`: the part of the buffer that is complete.
- `Writer.Ready`: trees can be written as the next arguments, as the census left
  room for them.
- `Writer.Wrote`: they were written, and are laid out in what is complete then.
- `Writer.writeTree_spec`: from the one comes the other.
-/

namespace FlatTree

namespace Writer

variable {layers : List Nat} {w : Writer} {start : Nat} {held : List Slot}

theorem free_congr {w' : Writer} (hcursors : w'.cursors = w.cursors)
    (hargs : w'.raw.args.size = w.raw.args.size) : w'.free = w.free := by
  funext l
  rw [free, free, hcursors, hargs]

/-- All expressions that have started, and the slots of those that have ended. -/
def done (layers : List Nat) (w : Writer) : Part where
  expressions index := index < w.nextExpression
  slots slot := ∃ l, layerStart layers (l + 1) ≤ slot ∧ slot < w.free l

theorem slots_done_congr {w' : Writer} (hfree : w'.free = w.free) {slot : Nat}
    (h : (w.done layers).slots slot) : (w'.done layers).slots slot := by
  obtain ⟨l, hlower, hupper⟩ := h
  exact ⟨l, hlower, hfree ▸ hupper⟩

/-- The buffer has the size that was counted, and each cursor is in its layer. -/
structure Fits (layers : List Nat) (w : Writer) : Prop where
  args : w.raw.args.size = total layers
  tags : w.raw.tags.size = total layers
  cursors : w.cursors.size = layers.length
  lower : ∀ l, layerStart layers (l + 1) ≤ w.free l
  upper : ∀ l, w.free l ≤ layerStart layers (l + 2)

/-- Other words in the buffer do not change what fits. -/
theorem Fits.congr {w' : Writer} (h : Fits layers w) (hcursors : w'.cursors = w.cursors)
    (hargs : w'.raw.args.size = w.raw.args.size) (htags : w'.raw.tags.size = w.raw.tags.size) :
    Fits layers w' where
  args := hargs.trans h.args
  tags := htags.trans h.tags
  cursors := hcursors ▸ h.cursors
  lower := free_congr hcursors hargs ▸ h.lower
  upper := free_congr hcursors hargs ▸ h.upper

/-- Trees can be written as the next arguments of the current expression: there
is room for them, and for all below them. -/
structure Ready (layers : List Nat) (w : Writer) (start : Nat) (held : List Slot)
    (trees : List Tree) : Prop where
  fits : Fits layers w
  writes : w.Writes start held
  inLayer : layerStart layers w.layer ≤ start
  below : start + held.length + trees.length ≤ layerStart layers (w.layer + 1)
  behind : ∀ l, l + 1 = w.layer → w.free l ≤ start
  room : ∀ l, w.free l + Tree.allArgumentsOn (l + 1) w.layer trees ≤ layerStart layers (l + 2)
  exprs : w.nextExpression + Tree.allExpressions trees ≤ w.raw.exprs.size

/-- What writing trees does. -/
structure Wrote (layers : List Nat) (w : Writer) (start : Nat) (held : List Slot)
    (trees : List Tree) (w' : Writer) : Prop where
  fits : Fits layers w'
  current : w'.current = { w.current with written := w.current.written + trees.length }
  outer : w'.outer = w.outer
  layer : w'.layer = w.layer
  next : w'.nextExpression = w.nextExpression + Tree.allExpressions trees
  exprs : w'.raw.exprs.size = w.raw.exprs.size
  free : ∀ l, w'.free l = w.free l + Tree.allArgumentsOn (l + 1) w.layer trees
  above : ∀ slot, slot < layerStart layers w.layer → w.raw.SameAt w'.raw slot
  keeps : w.raw.Keeps (w.done layers) w'.raw (w'.done layers)
  segment : Segment w'.raw start w'.run (held ++ Tree.depthFirstSlots w.nextExpression trees)
  lays : SlotsLay w'.raw .document ((w'.done layers).since w.nextExpression)
    (Tree.depthFirstSlots w.nextExpression trees) trees

/-! ## Room -/

namespace Ready

variable {tree : Tree} {others trees : List Tree}

/-- The slots of the current expression are not complete. -/
theorem outside (h : Ready layers w start held trees) {slot : Nat}
    (hslot : (w.done layers).slots slot) :
    slot < start ∨ start + held.length + trees.length ≤ slot := by
  obtain ⟨l, hlower, hupper⟩ := hslot
  have hinLayer := h.inLayer
  have hbelow := h.below
  -- The cursor is of a layer above, of the one that is written, or of one below.
  rcases Nat.lt_trichotomy (l + 1) w.layer with hl | hl | hl
  · have hfree := h.fits.upper l
    have hmono : layerStart layers (l + 2) ≤ layerStart layers w.layer := layerStart_mono hl
    omega
  · have hfree := h.behind l hl
    omega
  · have hmono : layerStart layers (w.layer + 1) ≤ layerStart layers (l + 1) := layerStart_mono hl
    omega

theorem slot_lt (h : Ready layers w start held (tree :: others)) :
    start + held.length < total layers := by
  have hbelow := h.below
  have htotal := layerStart_le_total layers (w.layer + 1)
  rw [List.length_cons] at hbelow
  omega

/-- The layer that is written was counted. -/
theorem layer_lt (h : Ready layers w start held (tree :: others)) : w.layer < layers.length := by
  refine lt_length_of_layerStart_lt ?_
  have hinLayer := h.inLayer
  have hbelow := h.below
  rw [List.length_cons] at hbelow
  omega

/-- The first of trees can be written. -/
theorem first (h : Ready layers w start held (tree :: others)) :
    Ready layers w start held [tree] where
  fits := h.fits
  writes := h.writes
  inLayer := h.inLayer
  below := by
    have hbelow := h.below
    rw [List.length_cons] at hbelow
    rw [List.length_singleton]
    omega
  behind := h.behind
  room l := by
    have hroom := h.room l
    rw [Tree.allArgumentsOn] at hroom ⊢
    rw [Tree.allArgumentsOn]
    omega
  exprs := by
    have hexprs := h.exprs
    rw [Tree.allExpressions] at hexprs ⊢
    rw [Tree.allExpressions]
    omega

/-- What adds an argument leaves alone what is complete. -/
theorem sameAt_of_done (h : Ready layers w start held (tree :: others)) {s : Slot}
    {next : RawBuffer} {run slot : Nat} (hfills : Fills w.raw start held s next run)
    (hslot : (w.done layers).slots slot) : w.raw.SameAt next slot := by
  refine hfills.outside slot ?_
  rcases h.outside hslot with hslot | hslot
  · exact .inl hslot
  · rw [List.length_cons] at hslot
    exact .inr (by omega)

/-- After the first of trees the others can be written. -/
theorem rest {w' : Writer} (h : Ready layers w start held (tree :: others))
    (hcurrent : w.current.expression < w.nextExpression)
    (hwrote : Wrote layers w start held [tree] w') :
    Ready layers w' start (held ++ Tree.depthFirstSlots w.nextExpression [tree]) others where
  fits := hwrote.fits
  writes := by
    obtain ⟨record, hrecord, hstart⟩ := h.writes.record
    refine ⟨⟨record, ?_, hstart⟩, ?_, hwrote.segment⟩
    · rw [hwrote.current]
      exact (hwrote.keeps.expressions _ hcurrent).2.trans hrecord
    · rw [hwrote.current, List.length_append, Tree.length_depthFirstSlots, ← h.writes.written]
  inLayer := hwrote.layer ▸ h.inLayer
  below := by
    have hbelow := h.below
    rw [List.length_cons] at hbelow
    rw [hwrote.layer, List.length_append, Tree.length_depthFirstSlots, List.length_singleton]
    omega
  behind l hl := by
    rw [hwrote.layer] at hl
    rw [hwrote.free, Tree.allArgumentsOn_eq_zero [tree] (Nat.le_of_eq hl)]
    exact h.behind l hl
  room l := by
    have hroom := h.room l
    rw [Tree.allArgumentsOn] at hroom
    rw [hwrote.layer, hwrote.free, Tree.allArgumentsOn, Tree.allArgumentsOn]
    omega
  exprs := by
    have hexprs := h.exprs
    rw [Tree.allExpressions] at hexprs
    rw [hwrote.exprs, hwrote.next, Tree.allExpressions, Tree.allExpressions]
    omega

end Ready

/-! ## Scalars -/

theorem wrote_nil (h : Ready layers w start held []) : Wrote layers w start held [] w where
  fits := h.fits
  current := rfl
  outer := rfl
  layer := rfl
  next := rfl
  exprs := rfl
  free _ := rfl
  above _ _ := ⟨rfl, rfl⟩
  keeps := .refl _ _
  segment := (List.append_nil held).symm ▸ h.writes.segment
  lays := .nil

theorem wrote_scalar {value : Scalar} (h : Ready layers w start held [.scalar value]) :
    ∃ w', w.scalar value = some w' ∧ Wrote layers w start held [.scalar value] w' := by
  have hslot := h.slot_lt
  obtain ⟨next, run, hscalar, hexprs, hfills⟩ := scalar_spec h.writes value
    (h.fits.args.symm ▸ hslot) (h.fits.tags.symm ▸ hslot)
  have hfree := @free_congr w { w with raw := next, run, current := w.taken } rfl hfills.argsSize
  refine ⟨_, hscalar, ?_⟩
  exact
    { fits := h.fits.congr rfl hfills.argsSize hfills.tagsSize
      current := rfl
      outer := rfl
      layer := rfl
      next := rfl
      exprs := congrArg Array.size hexprs
      free := fun l => congrFun hfree l
      above := fun slot hslot => hfills.outside slot (.inl (Nat.lt_of_lt_of_le hslot h.inLayer))
      keeps := by
        refine ⟨hfills.strings, hfills.argsSize.symm, fun index hindex => ⟨hindex, ?_⟩,
          fun slot hslot => ⟨slots_done_congr hfree hslot, h.sameAt_of_done hfills hslot⟩⟩
        exact congrArg (·[index]?) hexprs
      segment := hfills.segment
      lays := .scalar .nil }

/-! ## Expressions -/

/-- What starting an expression does. -/
structure Started (layers : List Nat) (w : Writer) (start : Nat) (held : List Slot)
    (head : String) (w' : Writer) : Prop where
  current : w'.current = ⟨w.nextExpression, 0⟩
  outer : w'.outer = w.taken :: w.outer
  layer : w'.layer = w.layer + 1
  next : w'.nextExpression = w.nextExpression + 1
  exprs : w'.raw.exprs.size = w.raw.exprs.size
  fits : Fits layers w'
  run : w'.run = 0
  free : w'.free = w.free
  record : ∃ offset, Heap.Holds w'.raw.strings offset head ∧
    w'.raw.exprs[w.nextExpression]? =
      some ⟨offset.toUInt64, (w.free w.layer).toUInt64, 0⟩
  above : ∀ slot, slot < layerStart layers w.layer → w.raw.SameAt w'.raw slot
  keeps : w.raw.Keeps (w.done layers) w'.raw (w'.done layers)
  segment : Segment w'.raw start 0 (held ++ [.expression w.nextExpression])

theorem started_of_ready {head : String} {children : List Tree}
    (h : Ready layers w start held [.node head children]) :
    ∃ w', w.start head = some w' ∧ Started layers w start held head w' := by
  have hslot := h.slot_lt
  have hroom : w.nextExpression < w.raw.exprs.size := by
    have hexprs := h.exprs
    rw [Tree.allExpressions, Tree.expressions] at hexprs
    omega
  have hcursor : w.cursors[w.layer]? = some (w.free w.layer) := by
    have hlt : w.layer < w.cursors.size := h.fits.cursors.symm ▸ h.layer_lt
    rw [free, Array.getElem?_eq_getElem hlt]
    rfl
  obtain ⟨next, offset, hstart, hexprs, hholds, hfills⟩ := start_spec h.writes head
    (h.fits.args.symm ▸ hslot) (h.fits.tags.symm ▸ hslot) hcursor hroom
  refine ⟨_, hstart, ?_⟩
  exact
    { current := rfl
      outer := rfl
      layer := rfl
      next := rfl
      exprs := (congrArg Array.size hexprs).trans Array.size_setIfInBounds
      fits := by
        refine h.fits.congr rfl ?_ ?_
        · exact hfills.argsSize
        · exact hfills.tagsSize
      run := rfl
      free := free_congr rfl hfills.argsSize
      record := by
        refine ⟨offset, hholds, ?_⟩
        show next.exprs[w.nextExpression]? = _
        rw [hexprs]
        exact Array.getElem?_setIfInBounds_self_of_lt hroom
      above := fun slot hslot => hfills.outside slot (.inl (Nat.lt_of_lt_of_le hslot h.inLayer))
      keeps := by
        refine ⟨hfills.strings, hfills.argsSize.symm,
          fun index hindex => ⟨Nat.lt_succ_of_lt hindex, ?_⟩,
          fun slot hslot => ⟨?_, h.sameAt_of_done hfills hslot⟩⟩
        · show next.exprs[index]? = _
          rw [hexprs]
          exact Array.getElem?_setIfInBounds_ne (Nat.ne_of_gt hindex)
        · refine slots_done_congr (w := w) ?_ hslot
          exact free_congr rfl hfills.argsSize
      segment := hfills.segment }

section Node

variable {head : String} {children : List Tree} {w' : Writer}

theorem allArgumentsOn_node (l layer : Nat) :
    Tree.allArgumentsOn l layer [.node head children] =
      (if l = layer + 1 then children.length else 0) +
        Tree.allArgumentsOn l (layer + 1) children :=
  rfl

/-- The census left room for the arguments of an expression. -/
theorem Ready.free_add_le (h : Ready layers w start held [.node head children]) :
    w.free w.layer + children.length ≤ layerStart layers (w.layer + 2) := by
  have hroom := h.room w.layer
  rw [allArgumentsOn_node, if_pos rfl] at hroom
  omega

/-- The cursor of a layer can be said by a word. -/
theorem Ready.toNat_free {trees : List Tree} (h : Ready layers w start held trees)
    (hwords : total layers < 2 ^ 64) :
    (w.free w.layer).toUInt64.toNat = w.free w.layer := by
  have hupper := h.fits.upper w.layer
  have htotal := layerStart_le_total layers (w.layer + 2)
  exact UInt64.toNat_ofNat_of_lt' (show w.free w.layer < 2 ^ 64 by omega)

/-- The children of an expression that has started can be written. -/
theorem Started.ready (hwords : total layers < 2 ^ 64)
    (h : Ready layers w start held [.node head children])
    (hstarted : Started layers w start held head w') :
    Ready layers w' (w.free w.layer) [] children where
  fits := hstarted.fits
  writes := by
    obtain ⟨offset, -, hrecord⟩ := hstarted.record
    refine ⟨⟨⟨offset.toUInt64, (w.free w.layer).toUInt64, 0⟩, ?_, h.toNat_free hwords⟩, ?_, ?_⟩
    · rw [hstarted.current]
      exact hrecord
    · rw [hstarted.current]
      rfl
    · rw [hstarted.run]
      exact .nil _ _
  inLayer := by
    rw [hstarted.layer]
    exact h.fits.lower w.layer
  below := by
    rw [hstarted.layer]
    exact h.free_add_le
  behind l hl := by
    rw [hstarted.layer] at hl
    rw [hstarted.free, Nat.succ_inj.mp hl]
  room l := by
    have hroom := h.room l
    rw [allArgumentsOn_node] at hroom
    rw [hstarted.free, hstarted.layer]
    omega
  exprs := by
    have hexprs := h.exprs
    rw [Tree.allExpressions, Tree.expressions] at hexprs
    rw [hstarted.next, hstarted.exprs]
    omega

variable {w'' last : Writer} {more : List Slot}

/-- What ends an expression leaves alone all that is complete but its record. -/
theorem Finished.done {slot : Nat} (hfinished : Finished w start more head last)
    (hfits : Fits layers w) (hfree : w.free last.layer = start)
    (hroom : start + more.length ≤ layerStart layers (last.layer + 2))
    (hslot : (w.done layers).slots slot) :
    (last.done layers).slots slot ∧ w.raw.SameAt last.raw slot := by
  obtain ⟨l, hlower, hupper⟩ := hslot
  constructor
  · refine ⟨l, hlower, ?_⟩
    rw [hfinished.free]
    split
    · next hl =>
      rw [hl, hfree] at hupper
      omega
    · exact hupper
  · refine ⟨congrArg (·[slot]?) hfinished.args, hfinished.tags.outside slot ?_⟩
    -- Layers do not overlap, and in the layer itself its slots come after `start`.
    rcases Nat.lt_trichotomy l last.layer with hl | rfl | hl
    · have hfree' := hfits.upper l
      have hnext := hfits.lower last.layer
      have hmono : layerStart layers (l + 2) ≤ layerStart layers (last.layer + 1) :=
        layerStart_mono (by omega)
      omega
    · omega
    · have hmono : layerStart layers (last.layer + 2) ≤ layerStart layers (l + 1) :=
        layerStart_mono (by omega)
      omega

/-- The children of an expression moved the cursors below its layer only. -/
theorem Started.free_children (hstarted : Started layers w start held head w')
    (hwrote : Wrote layers w' (w.free w.layer) [] children w'') (l : Nat) :
    w''.free l = w.free l + Tree.allArgumentsOn (l + 1) (w.layer + 1) children := by
  rw [hwrote.free, hstarted.free, hstarted.layer]

theorem Started.current_children (hstarted : Started layers w start held head w')
    (hwrote : Wrote layers w' (w.free w.layer) [] children w'') :
    w''.current = ⟨w.nextExpression, children.length⟩ := by
  rw [hwrote.current, hstarted.current]
  exact congrArg _ (Nat.zero_add _)

/-- An expression ends when all its children are written. -/
theorem finished_of_wrote (hwords : total layers < 2 ^ 64)
    (h : Ready layers w start held [.node head children])
    (hstarted : Started layers w start held head w')
    (hwrote : Wrote layers w' (w.free w.layer) [] children w'') :
    ∃ last, w''.finish = some last ∧
      Finished w'' (w.free w.layer) (Tree.depthFirstSlots (w.nextExpression + 1) children) head
        last ∧
      last.current = w.taken ∧ last.outer = w.outer ∧ last.layer = w.layer := by
  have hsegment := hwrote.segment
  rw [List.nil_append, hstarted.next] at hsegment
  have hlength := Tree.length_depthFirstSlots (w.nextExpression + 1) children
  have hcurrent := hstarted.current_children hwrote
  -- The record is still as it was written at the start.
  obtain ⟨offset, hholds, hrecord⟩ := hstarted.record
  obtain ⟨added, hadded⟩ := hwrote.keeps.strings
  have hkept := hwrote.keeps.expressions w.nextExpression
    (show w.nextExpression < w'.nextExpression by rw [hstarted.next]; exact Nat.lt_succ_self _)
  have hfits : w.free w.layer + (Tree.depthFirstSlots (w.nextExpression + 1) children).length ≤
      w''.raw.args.size := by
    rw [hwrote.fits.args, hlength]
    exact Nat.le_trans h.free_add_le (layerStart_le_total layers _)
  obtain ⟨last, hfinish, hfinished, hlast⟩ := @finish_spec w'' (w.free w.layer)
    (Tree.depthFirstSlots (w.nextExpression + 1) children) offset w.layer head w.taken w.outer
    (by rw [hcurrent]; exact hkept.2.trans hrecord) (hadded ▸ hholds.append added)
    (h.toNat_free hwords) (by rw [hcurrent, hlength]) hsegment hfits
    (hwrote.outer.trans hstarted.outer) (hwrote.layer.trans hstarted.layer)
    (hwrote.fits.cursors.symm ▸ h.layer_lt)
  exact ⟨last, hfinish, hfinished, hlast⟩

/-- All that was complete before an expression ended is complete after. -/
theorem Finished.done_children (h : Ready layers w start held [.node head children])
    (hstarted : Started layers w start held head w')
    (hwrote : Wrote layers w' (w.free w.layer) [] children w'')
    (hfinished : Finished w'' (w.free w.layer)
      (Tree.depthFirstSlots (w.nextExpression + 1) children) head last)
    (hlayer : last.layer = w.layer) {slot : Nat} (hslot : (w''.done layers).slots slot) :
    (last.done layers).slots slot ∧ w''.raw.SameAt last.raw slot := by
  refine hfinished.done hwrote.fits ?_ ?_ hslot
  · rw [hlayer, hstarted.free_children hwrote,
      Tree.allArgumentsOn_eq_zero children (Nat.le_refl _), Nat.add_zero]
  · rw [hlayer, Tree.length_depthFirstSlots]
    exact h.free_add_le

/-- An expression that has ended is stored under its number. -/
theorem stores_node (hstarted : Started layers w start held head w')
    (hwrote : Wrote layers w' (w.free w.layer) [] children w'')
    (hfinished : Finished w'' (w.free w.layer)
      (Tree.depthFirstSlots (w.nextExpression + 1) children) head last) :
    last.raw.Stores .document w.nextExpression head (w.free w.layer)
      (Tree.depthFirstSlots (w.nextExpression + 1) children) := by
  have hindex : w''.current.expression = w.nextExpression := by
    rw [hstarted.current_children hwrote]
  exact hindex ▸ hfinished.stores

/-- Its slots and its number are complete. -/
theorem done_node (h : Ready layers w start held [.node head children])
    (hstarted : Started layers w start held head w')
    (hwrote : Wrote layers w' (w.free w.layer) [] children w'')
    (hfinished : Finished w'' (w.free w.layer)
      (Tree.depthFirstSlots (w.nextExpression + 1) children) head last)
    (hlayer : last.layer = w.layer) :
    ((last.done layers).since w.nextExpression).expressions w.nextExpression ∧
      ∀ slot, w.free w.layer ≤ slot → slot < w.free w.layer + children.length →
        (last.done layers).slots slot := by
  refine ⟨⟨Nat.le_refl _, ?_⟩, fun slot hlower hupper => ?_⟩
  · show w.nextExpression < last.nextExpression
    rw [hfinished.next, hwrote.next, hstarted.next]
    omega
  · refine ⟨w.layer, Nat.le_trans (h.fits.lower _) hlower, ?_⟩
    rw [hfinished.free, if_pos hlayer.symm, Tree.length_depthFirstSlots]
    exact hupper

/-- What was complete below an expression is complete after it ends. -/
theorem keeps_below (h : Ready layers w start held [.node head children])
    (hstarted : Started layers w start held head w')
    (hwrote : Wrote layers w' (w.free w.layer) [] children w'')
    (hfinished : Finished w'' (w.free w.layer)
      (Tree.depthFirstSlots (w.nextExpression + 1) children) head last)
    (hlayer : last.layer = w.layer) :
    w''.raw.Keeps ((w''.done layers).since (w.nextExpression + 1)) last.raw
      ((last.done layers).since w.nextExpression) := by
  refine ⟨⟨.empty, ?_⟩, congrArg Array.size hfinished.args.symm, ?_, ?_⟩
  · rw [hfinished.strings, ByteArray.append_empty]
  · rintro index ⟨hfirst, hlast⟩
    -- Only the record of the expression itself is written when it ends.
    refine ⟨⟨Nat.le_of_succ_le hfirst, ?_⟩, hfinished.exprs index ?_⟩
    · exact Nat.lt_of_lt_of_eq hlast hfinished.next.symm
    · rw [hstarted.current_children hwrote]
      exact Nat.ne_of_gt hfirst
  · exact fun slot hslot => hfinished.done_children h hstarted hwrote hlayer hslot

/-- **An expression that has ended is laid out**, with all below it. -/
theorem lays_node (h : Ready layers w start held [.node head children])
    (hstarted : Started layers w start held head w')
    (hwrote : Wrote layers w' (w.free w.layer) [] children w'')
    (hfinished : Finished w'' (w.free w.layer)
      (Tree.depthFirstSlots (w.nextExpression + 1) children) head last)
    (hlayer : last.layer = w.layer) :
    Lays last.raw .document ((last.done layers).since w.nextExpression) w.nextExpression
      (.node head children) := by
  have hlays := hwrote.lays
  rw [hstarted.next] at hlays
  obtain ⟨hindex, hslots⟩ := done_node h hstarted hwrote hfinished hlayer
  rw [← Tree.length_depthFirstSlots (w.nextExpression + 1) children] at hslots
  exact .node (stores_node hstarted hwrote hfinished) hindex hslots
    (hlays.of_keeps RunPolicy.valid_document (keeps_below h hstarted hwrote hfinished hlayer))

/-- The cursor of its own layer moved behind the children, too. -/
theorem free_node (hstarted : Started layers w start held head w')
    (hwrote : Wrote layers w' (w.free w.layer) [] children w'')
    (hfinished : Finished w'' (w.free w.layer)
      (Tree.depthFirstSlots (w.nextExpression + 1) children) head last)
    (hlayer : last.layer = w.layer) (l : Nat) :
    last.free l = w.free l + Tree.allArgumentsOn (l + 1) w.layer [.node head children] := by
  rw [hfinished.free, hlayer, allArgumentsOn_node]
  by_cases hl : l = w.layer
  · rw [if_pos hl, hl, if_pos rfl, Tree.allArgumentsOn_eq_zero children (Nat.le_refl _),
      Tree.length_depthFirstSlots]
    rfl
  · rw [if_neg hl, if_neg (fun heq => hl (Nat.succ_inj.mp heq)), hstarted.free_children hwrote,
      Nat.zero_add]

/-- The slots of its own layer and of those above are out of reach of the children,
and the end of an expression does not change them either. -/
theorem sameAt_node (h : Ready layers w start held [.node head children])
    (hstarted : Started layers w start held head w')
    (hwrote : Wrote layers w' (w.free w.layer) [] children w'')
    (hfinished : Finished w'' (w.free w.layer)
      (Tree.depthFirstSlots (w.nextExpression + 1) children) head last) {slot : Nat}
    (hslot : slot < layerStart layers (w.layer + 1)) : w'.raw.SameAt last.raw slot := by
  have hlower := h.fits.lower w.layer
  have hended : w''.raw.SameAt last.raw slot :=
    ⟨congrArg (·[slot]?) hfinished.args, hfinished.tags.outside slot (.inl (by omega))⟩
  exact (hwrote.above slot (hstarted.layer ▸ hslot)).trans hended

/-- What was complete before an expression is complete after it. -/
theorem keeps_node (h : Ready layers w start held [.node head children])
    (hstarted : Started layers w start held head w')
    (hwrote : Wrote layers w' (w.free w.layer) [] children w'')
    (hfinished : Finished w'' (w.free w.layer)
      (Tree.depthFirstSlots (w.nextExpression + 1) children) head last)
    (hlayer : last.layer = w.layer) :
    w.raw.Keeps (w.done layers) last.raw (last.done layers) := by
  obtain ⟨⟨added, hadded⟩, hsize, hkept, hslots⟩ := hstarted.keeps.trans hwrote.keeps
  refine ⟨⟨added, hfinished.strings.trans hadded⟩,
    hsize.trans (congrArg Array.size hfinished.args.symm), fun index hlt => ⟨?_, ?_⟩,
    fun slot hslot => ?_⟩
  · exact Nat.lt_of_lt_of_eq (hkept index hlt).1 hfinished.next.symm
  · -- The record that is written at the end is that of the expression itself.
    refine (hfinished.exprs index ?_).trans (hkept index hlt).2
    rw [hstarted.current_children hwrote]
    exact Nat.ne_of_lt hlt
  · obtain ⟨hslot', hsame⟩ := hslots slot hslot
    obtain ⟨hlast, hsame'⟩ := hfinished.done_children h hstarted hwrote hlayer hslot'
    exact ⟨hlast, hsame.trans hsame'⟩

/-- **An expression is written** when its children are and it has ended. -/
theorem wrote_node (h : Ready layers w start held [.node head children])
    (hstarted : Started layers w start held head w')
    (hwrote : Wrote layers w' (w.free w.layer) [] children w'')
    (hfinished : Finished w'' (w.free w.layer)
      (Tree.depthFirstSlots (w.nextExpression + 1) children) head last)
    (hcurrent : last.current = w.taken) (houter : last.outer = w.outer)
    (hlayer : last.layer = w.layer) :
    Wrote layers w start held [.node head children] last := by
  have hfree := free_node hstarted hwrote hfinished hlayer
  have hnext : last.nextExpression = w.nextExpression + 1 + Tree.allExpressions children := by
    rw [hfinished.next, hwrote.next, hstarted.next]
  have habove : ∀ slot, slot < layerStart layers (w.layer + 1) → w'.raw.SameAt last.raw slot :=
    fun slot hslot => sameAt_node h hstarted hwrote hfinished hslot
  exact
    { fits := by
        refine ⟨?_, hfinished.tags.size.trans hwrote.fits.tags,
          hfinished.cursors.trans hwrote.fits.cursors, fun l => ?_, fun l => ?_⟩
        · rw [hfinished.args, hwrote.fits.args]
        · rw [hfree]
          exact Nat.le_trans (h.fits.lower l) (Nat.le_add_right _ _)
        · rw [hfree]
          exact h.room l
      current := hcurrent
      outer := houter
      layer := hlayer
      next := by
        rw [hnext, Tree.allExpressions, Tree.expressions, Tree.allExpressions]
        omega
      exprs := by
        rw [hfinished.exprsSize, hwrote.exprs, hstarted.exprs]
      free := hfree
      above := fun slot hslot =>
        (hstarted.above slot hslot).trans (habove slot (by rw [layerStart_succ]; omega))
      keeps := keeps_node h hstarted hwrote hfinished hlayer
      lays := .expression (lays_node h hstarted hwrote hfinished hlayer) .nil
      segment := by
        obtain ⟨more, hmore⟩ := hwrote.keeps.strings
        rw [hfinished.run]
        refine hstarted.segment.of_sameAt ⟨more, hfinished.strings.trans hmore⟩
          fun slot _ hslot => ?_
        have hbelow := h.below
        rw [List.length_append] at hslot
        rw [List.length_singleton] at hslot hbelow
        exact habove slot (by omega) }

end Node

/-! ## Whole trees -/

/-- Trees are written one after another. -/
theorem Wrote.cons {tree : Tree} {rest : List Tree} {w' w'' : Writer}
    (h : Wrote layers w start held [tree] w')
    (hrest : Wrote layers w' start (held ++ Tree.depthFirstSlots w.nextExpression [tree]) rest
      w'') :
    Wrote layers w start held (tree :: rest) w'' where
  fits := hrest.fits
  current := by
    rw [hrest.current, h.current]
    refine congrArg (OpenExpression.mk w.current.expression) ?_
    show w.current.written + 1 + rest.length = w.current.written + (rest.length + 1)
    omega
  outer := hrest.outer.trans h.outer
  layer := hrest.layer.trans h.layer
  next := by
    rw [hrest.next, h.next, Tree.allExpressions, Tree.allExpressions, Tree.allExpressions]
    omega
  exprs := hrest.exprs.trans h.exprs
  free l := by
    rw [hrest.free, h.free, h.layer, Tree.allArgumentsOn, Tree.allArgumentsOn, Tree.allArgumentsOn]
    omega
  above slot hslot := (h.above slot hslot).trans (hrest.above slot (h.layer ▸ hslot))
  keeps := h.keeps.trans hrest.keeps
  segment := by
    have hsegment := hrest.segment
    rw [List.append_assoc, h.next, ← Tree.depthFirstSlots_append] at hsegment
    exact hsegment
  lays := by
    have hlater := hrest.lays
    rw [h.next] at hlater
    -- The first tree stays laid out, and the others have later numbers.
    have hall := (h.lays.of_keeps RunPolicy.valid_document (hrest.keeps.since _)).append
      (hlater.of_keeps RunPolicy.valid_document (.since_le _ _ (Nat.le_add_right _ _)))
    rwa [← Tree.depthFirstSlots_append] at hall

/-- An expression starts, its children are written and it ends, wherever there is room
for it, if its children are written wherever there is room for them. -/
theorem exists_finished (hwords : total layers < 2 ^ 64) {head : String} {children : List Tree}
    (hchildren : ∀ {w : Writer} {start : Nat} {held : List Slot},
      Ready layers w start held children → w.current.expression < w.nextExpression →
        ∃ w', writeTrees children w = some w' ∧ Wrote layers w start held children w')
    (h : Ready layers w start held [.node head children]) :
    ∃ w' w'' last, w.start head = some w' ∧ Started layers w start held head w' ∧
      writeTrees children w' = some w'' ∧ Wrote layers w' (w.free w.layer) [] children w'' ∧
      w''.finish = some last ∧
      Finished w'' (w.free w.layer) (Tree.depthFirstSlots (w.nextExpression + 1) children) head
        last ∧
      last.current = w.taken ∧ last.outer = w.outer ∧ last.layer = w.layer := by
  obtain ⟨w', hstart, hstarted⟩ := started_of_ready h
  have hcurrent : w'.current.expression < w'.nextExpression := by
    rw [hstarted.current, hstarted.next]
    exact Nat.lt_succ_self _
  obtain ⟨w'', hwrite, hwrote⟩ := hchildren (hstarted.ready hwords h) hcurrent
  obtain ⟨last, hlast⟩ := finished_of_wrote hwords h hstarted hwrote
  exact ⟨w', w'', last, hstart, hstarted, hwrite, hwrote, hlast⟩

/-- An expression is written, wherever there is room for it, if its children are
wherever there is room for them. -/
theorem writeNode_spec (hwords : total layers < 2 ^ 64) {head : String} {children : List Tree}
    (hchildren : ∀ {w : Writer} {start : Nat} {held : List Slot},
      Ready layers w start held children → w.current.expression < w.nextExpression →
        ∃ w', writeTrees children w = some w' ∧ Wrote layers w start held children w')
    (h : Ready layers w start held [.node head children]) :
    ∃ w', writeTree (.node head children) w = some w' ∧
      Wrote layers w start held [.node head children] w' ∧
      Lays w'.raw .document ((w'.done layers).since w.nextExpression) w.nextExpression
        (.node head children) := by
  obtain ⟨w', w'', last, hstart, hstarted, hwrite, hwrote, hfinish, hfinished, hlast, houter,
    hlayer⟩ := exists_finished hwords hchildren h
  refine ⟨last, ?_, wrote_node h hstarted hwrote hfinished hlast houter hlayer,
    lays_node h hstarted hwrote hfinished hlayer⟩
  rw [writeTree, hstart]
  show writeTrees children w' >>= finish = some last
  rw [hwrite]
  exact hfinish

mutual

/-- **A tree is written** as the next argument, wherever there is room for it. -/
theorem writeTree_spec (hwords : total layers < 2 ^ 64) :
    ∀ (tree : Tree) {w : Writer} {start : Nat} {held : List Slot},
      Ready layers w start held [tree] →
        ∃ w', writeTree tree w = some w' ∧ Wrote layers w start held [tree] w'
  | .scalar _, _, _, _, h => wrote_scalar h
  | .node _ children, _, _, _, h => by
    obtain ⟨w', hwrite, hwrote, -⟩ := writeNode_spec hwords
      (fun hready hcurrent => writeTrees_spec hwords children hready hcurrent) h
    exact ⟨w', hwrite, hwrote⟩

theorem writeTrees_spec (hwords : total layers < 2 ^ 64) :
    ∀ (trees : List Tree) {w : Writer} {start : Nat} {held : List Slot},
      Ready layers w start held trees → w.current.expression < w.nextExpression →
        ∃ w', writeTrees trees w = some w' ∧ Wrote layers w start held trees w'
  | [], w, _, _, h, _ => ⟨w, rfl, wrote_nil h⟩
  | tree :: rest, w, start, held, h, hcurrent => by
    obtain ⟨w', htree, hfirst⟩ := writeTree_spec hwords tree h.first
    have hcurrent' : w'.current.expression < w'.nextExpression := by
      rw [hfirst.current, hfirst.next]
      exact Nat.lt_of_lt_of_le hcurrent (Nat.le_add_right _ _)
    obtain ⟨w'', hrest, hwrote⟩ :=
      writeTrees_spec hwords rest (h.rest hcurrent hfirst) hcurrent'
    refine ⟨w'', ?_, hfirst.cons hwrote⟩
    rw [writeTrees, htree]
    exact hrest

end

/-! ## Documents -/

/-- At first each cursor is where its layer starts. -/
theorem free_new (census : Census) (l : Nat) :
    (new census).free l = layerStart census.layers (l + 1) := by
  show census.cursors.toArray[l]?.getD (Array.replicate census.slots 0).size = _
  rw [List.getElem?_toArray, Census.cursors, List.getElem?_map, Array.size_replicate]
  by_cases hl : l < census.layers.length
  · rw [List.getElem?_range hl]
    rfl
  · rw [List.getElem?_eq_none (by rw [List.length_range]; omega),
      layerStart_of_length_le (by omega)]
    rfl

/-- The tree of a document can be written in a buffer of the size that its census
says. -/
theorem ready_new {document : Document} (hroot : 0 < document.census.expressions) :
    Ready document.census.layers (new document.census) 0 [] [document.tree] := by
  have hcounts := document.adds_census
  have hslotsOn : ∀ l, slotsOn [] l = 0 := fun l => by rw [slotsOn, List.getElem?_nil]; rfl
  exact
    { fits := by
        refine ⟨Array.size_replicate, Array.size_replicate, ?_, fun l => ?_, fun l => ?_⟩
        · show document.census.cursors.toArray.size = _
          rw [List.size_toArray, Census.cursors, List.length_map, List.length_range]
        · rw [free_new]
        · rw [free_new]
          exact layerStart_mono (Nat.le_succ _)
      writes := by
        refine ⟨⟨⟨0, 0, 0⟩, ?_, rfl⟩, rfl, .nil _ _⟩
        show (Array.replicate document.census.expressions _)[0]? = _
        rw [Array.getElem?_replicate, if_pos hroot]
      inLayer := Nat.le_refl _
      below := by
        have hfirst := hcounts.layers 0
        rw [if_pos rfl, Census.empty, hslotsOn] at hfirst
        show 0 + 0 + 1 ≤ layerStart document.census.layers (0 + 1)
        rw [layerStart_succ, hfirst, List.length_singleton]
        omega
      behind := fun l hl => absurd hl (Nat.succ_ne_zero l)
      room := fun l => by
        have hlayer := hcounts.layers (l + 1)
        rw [if_neg (Nat.succ_ne_zero l), Census.empty, hslotsOn] at hlayer
        rw [free_new, layerStart_succ document.census.layers (l + 1), hlayer]
        show _ + Tree.allArgumentsOn (l + 1) 0 [document.tree] ≤ _
        omega
      exprs := by
        show 0 + Tree.allExpressions [document.tree] ≤
          (Array.replicate document.census.expressions _).size
        rw [Array.size_replicate, hcounts.expressions]
        exact Nat.le_refl _ }

end Writer

/-- **Every document of which the root is an expression can be laid out**, and
its tree is in the buffer. -/
theorem Document.layOut?_spec {document : Document} {head : String} {children : List Tree}
    (htree : document.tree = .node head children) (hslots : document.census.slots < 2 ^ 64) :
    ∃ raw part, document.layOut? = some raw ∧ Lays raw .document part 0 document.tree ∧
      raw.args.size = document.census.slots ∧ raw.tags.size = document.census.slots ∧
      raw.exprs.size = document.census.expressions := by
  have hroot : 0 < document.census.expressions := by
    rw [document.adds_census.expressions, htree, Tree.allExpressions, Tree.expressions]
    omega
  have hready := Writer.ready_new hroot
  rw [htree] at hready
  obtain ⟨w, hwrite, hwrote, hlays⟩ := Writer.writeNode_spec hslots
    (fun hready hcurrent => Writer.writeTrees_spec hslots children hready hcurrent) hready
  refine ⟨w.raw, _, ?_, htree ▸ hlays, hwrote.fits.args, hwrote.fits.tags, ?_⟩
  · rw [layOut?, htree, hwrite]
    rfl
  · rw [hwrote.exprs]
    exact Array.size_replicate

end FlatTree
