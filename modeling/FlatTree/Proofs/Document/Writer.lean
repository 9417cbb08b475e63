import FlatTree.Proofs.Document.Segment

/-!
# Steps of a writer

A writer adds a scalar, starts an expression or ends one. Each step is described
by what it does to the buffer and to the segment of the current expression.

- `Writer.Writes`: where the current expression has its arguments, and which.
- `Writer.scalar_spec`, `Writer.start_spec`, `Writer.finish_spec`: the steps.
-/

namespace FlatTree.Writer

/-- The current expression has its arguments from `start` on. -/
structure Writes (w : Writer) (start : Nat) (held : List Slot) : Prop where
  record : ∃ record, w.raw.exprs[w.current.expression]? = some record ∧
    record.start.toNat = start
  written : w.current.written = held.length
  segment : Segment w.raw start w.run held

/-- The next free slot for arguments of the expressions on a layer. -/
def free (w : Writer) (l : Nat) : Nat :=
  w.cursors[l]?.getD w.raw.args.size

/-- The current expression with one more argument. -/
def taken (w : Writer) : OpenExpression :=
  { w.current with written := w.current.written + 1 }

variable {w : Writer} {start : Nat} {held : List Slot}

theorem takeSlot_eq (h : w.Writes start held) :
    w.takeSlot = some (start + held.length, { w with current := w.taken }) := by
  obtain ⟨record, hrecord, rfl⟩ := h.record
  rw [takeSlot, hrecord, ← h.written]
  rfl

theorem fill_eq {slot : Nat} {word tag : UInt64} (hargs : slot < w.raw.args.size)
    (htags : slot < w.raw.tags.size) :
    w.fill slot word tag = some { w with raw := w.raw.put slot word tag } :=
  if_pos ⟨hargs, htags⟩

/-- Texts that are added to the heap leave a segment as it is. -/
theorem Writes.append (h : w.Writes start held) (more : ByteArray) :
    Writes { w with raw := { w.raw with strings := w.raw.strings ++ more } } start held where
  record := h.record
  written := h.written
  segment := h.segment.of_sameAt ⟨more, rfl⟩ fun _ _ _ => ⟨rfl, rfl⟩

/-! ## Scalars -/

/-- Counts a scalar that was filled in: it goes on with the stretch before it, or
ends that and starts the next. -/
def extend (w : Writer) (slot : Nat) (code : UInt64) : Option Writer :=
  if w.run = 0 then some { w with run := 1 }
  else do
    let before ← match slot with
      | 0 => none
      | previous + 1 => w.raw.tags[previous]?
    let w ← if before = code then some w else w.closeRun slot
    return { w with run := w.run + 1 }

theorem scalar_eq_extend {value : Scalar} {raw : RawBuffer} {word : UInt64} {slot : Nat}
    {taken filled : Writer} (hpush : w.raw.pushScalar value = (raw, word))
    (htake : takeSlot { w with raw } = some (slot, taken))
    (hfill : taken.fill slot word value.type.code = some filled) :
    w.scalar value = filled.extend slot value.type.code := by
  rw [scalar, hpush]
  show takeSlot { w with raw } >>= _ = _
  rw [htake]
  show taken.fill slot word value.type.code >>= _ = _
  rw [hfill]
  rfl

theorem extend_spec {s : Slot} (h : Segment w.raw start w.run held)
    (hslot : w.raw.SlotHolds (start + held.length) s)
    (htag : w.raw.TagHolds (start + held.length) s.type.code)
    (hs : s.type.code ≠ SlotType.expression.code) :
    ∃ tags run, w.extend (start + held.length) s.type.code =
        some { w with raw := { w.raw with tags }, run } ∧
      Retags w.raw start (start + held.length) tags ∧
      Segment { w.raw with tags } start run (held ++ [s]) := by
  obtain ⟨closed, code, hends, htags⟩ := h.tags
  by_cases hrun : w.run = 0
  · -- The argument before, if there is one, is an expression.
    rw [hrun] at h hends
    refine ⟨w.raw.tags, 1, by rw [extend, if_pos hrun], .refl _ _ _, ?_⟩
    refine .push_new (h.closes.followed h hslot htag) hs fun hlast => ?_
    rw [hends.codes, List.replicate_zero, List.append_nil] at hlast
    exact hs (hends.none rfl _ hlast)
  · have hle := h.run_le
    obtain ⟨k, hk⟩ : ∃ k, held.length = k + 1 := ⟨held.length - 1, by omega⟩
    have hbefore : w.raw.tags[start + k]? = some code := hends.tagHolds_last htags hrun hk
    have hextend : w.extend (start + held.length) s.type.code =
        (if code = s.type.code then some w else w.closeRun (start + held.length)) >>=
          fun w => some { w with run := w.run + 1 } := by
      rw [extend, if_neg hrun, hk]
      show (w.raw.tags[start + k]?.bind _) = _
      rw [hbefore]
      show (if code = s.type.code then _ else _) = _
      split <;> rfl
    by_cases hsame : s.type.code = code
    · -- The stretch goes on, with one more tag.
      refine ⟨w.raw.tags, w.run + 1, ?_, .refl _ _ _, h.push_same hends htags hslot ?_ hsame⟩
      · rw [hextend, if_pos hsame.symm]
        rfl
      · exact hsame ▸ htag
    · -- The stretch ends before the new argument, which starts the next.
      obtain ⟨tags, hclose, hcloses⟩ := closeRun_spec h
      refine ⟨tags, 1, ?_, hcloses.toRetags, ?_⟩
      · rw [hextend, if_neg fun heq => hsame heq.symm, hclose]
        rfl
      · refine .push_new (hcloses.followed h hslot htag) hs fun hlast => ?_
        rw [hends.codes, List.getLast?_append, List.getLast?_replicate, if_neg hrun] at hlast
        exact hsame (Option.some.inj hlast).symm

/-- **A scalar is added** to the current expression, whatever stretch is open. -/
theorem scalar_spec (h : w.Writes start held) (value : Scalar)
    (hargs : start + held.length < w.raw.args.size)
    (htags : start + held.length < w.raw.tags.size) :
    ∃ next run, w.scalar value = some { w with raw := next, run, current := w.taken } ∧
      next.exprs = w.raw.exprs ∧ Fills w.raw start held (.scalar value) next run := by
  obtain ⟨more, word, hpush, hstored⟩ := w.raw.pushScalar_spec value
  have hwrites := h.append more
  have hsegment := hwrites.segment.put word value.type.code
  obtain ⟨tags, run, hextend, hretags, hpushed⟩ := @extend_spec
    { w with
      raw := RawBuffer.put { w.raw with strings := w.raw.strings ++ more } (start + held.length)
        word value.type.code
      current := w.taken }
    start held (.scalar value) hsegment (RawBuffer.slotHolds_put hargs hstored)
    (RawBuffer.tagHolds_put htags) value.code_ne
  have hfills := hretags.fills hpushed
  refine ⟨_, run, ?_, ?_, ⟨more, rfl⟩, hfills.argsSize, hfills.tagsSize, hfills.outside,
    hfills.segment⟩
  · rw [scalar_eq_extend hpush (takeSlot_eq hwrites) (fill_eq hargs htags)]
    exact hextend
  · rfl

/-! ## Expressions -/

theorem start_eq {head : String} {slot cursor : Nat} {taken filled closed : Writer}
    (htake : w.takeSlot = some (slot, taken))
    (hfill : taken.fill slot w.nextExpression.toUInt64 SlotType.expression.code = some filled)
    (hclose : filled.closeRun slot = some closed)
    (hcursor : closed.cursors[closed.layer]? = some cursor)
    (hroom : w.nextExpression < closed.raw.exprs.size) :
    w.start head = some { closed with
      raw := { closed.raw.pushText head with
        exprs := closed.raw.exprs.setIfInBounds w.nextExpression
          ⟨closed.raw.nextText, cursor.toUInt64, 0⟩ }
      current := ⟨w.nextExpression, 0⟩
      outer := closed.current :: closed.outer
      nextExpression := w.nextExpression + 1
      layer := closed.layer + 1 } := by
  rw [start, htake]
  show taken.fill slot _ _ >>= _ = _
  rw [hfill]
  show filled.closeRun slot >>= _ = _
  rw [hclose]
  show closed.cursors[closed.layer]? >>= _ = _
  rw [hcursor]
  exact if_pos hroom

/-- **An expression starts** where the cursor of its layer is, and is an argument
of the current one. -/
theorem start_spec (h : w.Writes start held) (head : String) {cursor : Nat}
    (hargs : start + held.length < w.raw.args.size)
    (htags : start + held.length < w.raw.tags.size) (hcursor : w.cursors[w.layer]? = some cursor)
    (hroom : w.nextExpression < w.raw.exprs.size) :
    ∃ next offset, w.start head = some { w with
        raw := next
        current := ⟨w.nextExpression, 0⟩
        outer := w.taken :: w.outer
        nextExpression := w.nextExpression + 1
        layer := w.layer + 1
        run := 0 } ∧
      next.exprs = w.raw.exprs.setIfInBounds w.nextExpression
        ⟨offset.toUInt64, cursor.toUInt64, 0⟩ ∧
      Heap.Holds next.strings offset head ∧
      Fills w.raw start held (.expression w.nextExpression) next 0 := by
  -- The slot is filled before the stretch ends, but is not a part of the stretch.
  have hsegment := h.segment.put w.nextExpression.toUInt64 SlotType.expression.code
  obtain ⟨tags, hclose, hcloses⟩ := @closeRun_spec
    { w with
      raw := w.raw.put (start + held.length) w.nextExpression.toUInt64 SlotType.expression.code
      current := w.taken }
    start held hsegment
  have hpushed := Segment.push_expression (hcloses.followed hsegment
    (s := .expression w.nextExpression) (RawBuffer.slotHolds_put hargs rfl)
    (RawBuffer.tagHolds_put htags))
  have hfills := hcloses.toRetags.fills hpushed
  refine ⟨_, w.raw.strings.size,
    start_eq (takeSlot_eq h) (fill_eq hargs htags) hclose hcursor hroom, rfl,
    Heap.holds_append w.raw.strings head, ⟨RawBuffer.textEntry head, rfl⟩, hfills.argsSize,
    hfills.tagsSize, hfills.outside, ?_⟩
  exact hfills.segment.of_sameAt ⟨RawBuffer.textEntry head, rfl⟩ fun _ _ _ => ⟨rfl, rfl⟩

/-- What ending the current expression does: its arguments are those that were
written, and the cursor of its layer moves behind them. -/
structure Finished (w : Writer) (start : Nat) (held : List Slot) (head : String) (w' : Writer) :
    Prop where
  outer : w.outer = w'.current :: w'.outer
  layer : w.layer = w'.layer + 1
  next : w'.nextExpression = w.nextExpression
  run : w'.run = 0
  cursors : w'.cursors.size = w.cursors.size
  free : ∀ l, w'.free l = if l = w'.layer then start + held.length else w.free l
  strings : w'.raw.strings = w.raw.strings
  args : w'.raw.args = w.raw.args
  tags : Retags w.raw start (start + held.length) w'.raw.tags
  exprsSize : w'.raw.exprs.size = w.raw.exprs.size
  exprs : ∀ index, index ≠ w.current.expression → w'.raw.exprs[index]? = w.raw.exprs[index]?
  stores : w'.raw.Stores .document w.current.expression head start held

theorem finish_eq {record : Record} {stop layer : Nat} {tags : Array UInt64}
    {outer : OpenExpression} {rest : List OpenExpression}
    (hrecord : w.raw.exprs[w.current.expression]? = some record)
    (hstop : record.start.toNat + w.current.written = stop)
    (hclose : closeRun { w with raw := { w.raw with
        exprs := w.raw.exprs.setIfInBounds w.current.expression
          { record with stop := stop.toUInt64 } } } stop =
      some { w with
        raw := { w.raw with
          tags
          exprs := w.raw.exprs.setIfInBounds w.current.expression
            { record with stop := stop.toUInt64 } }
        run := 0 })
    (houter : w.outer = outer :: rest) (hlayer : w.layer = layer + 1)
    (hcursors : layer < w.cursors.size) :
    w.finish = some { w with
      raw := { w.raw with
        tags
        exprs := w.raw.exprs.setIfInBounds w.current.expression
          { record with stop := stop.toUInt64 } }
      current := outer
      outer := rest
      layer
      cursors := w.cursors.setIfInBounds layer stop
      run := 0 } := by
  rw [finish]
  show w.raw.exprs[w.current.expression]? >>= _ = _
  rw [hrecord]
  show closeRun { w with raw := { w.raw with
    exprs := w.raw.exprs.setIfInBounds w.current.expression
      { record with stop := (record.start.toNat + w.current.written).toUInt64 } } }
    (record.start.toNat + w.current.written) >>= _ = _
  rw [hstop, hclose]
  simp only [houter, hlayer, Option.bind_eq_bind, Option.bind_some]
  rw [if_pos hcursors]
  rfl

/-- **The current expression ends**: its record says where its arguments end, and
it is stored. -/
theorem finish_spec {offset layer : Nat} {head : String} {outer : OpenExpression}
    {rest : List OpenExpression}
    (hrecord : w.raw.exprs[w.current.expression]? =
      some ⟨offset.toUInt64, start.toUInt64, 0⟩)
    (hholds : Heap.Holds w.raw.strings offset head) (hstart : start.toUInt64.toNat = start)
    (hwritten : w.current.written = held.length) (hsegment : Segment w.raw start w.run held)
    (hfits : start + held.length ≤ w.raw.args.size) (houter : w.outer = outer :: rest)
    (hlayer : w.layer = layer + 1) (hcursors : layer < w.cursors.size) :
    ∃ w', w.finish = some w' ∧ Finished w start held head w' ∧ w'.current = outer ∧
      w'.outer = rest ∧ w'.layer = layer := by
  obtain ⟨tags, hclose, hcloses⟩ := @closeRun_spec
    { w with raw := { w.raw with
      exprs := w.raw.exprs.setIfInBounds w.current.expression
        ⟨offset.toUInt64, start.toUInt64, (start + held.length).toUInt64⟩ } }
    start held (hsegment.of_sameAt ⟨.empty, ByteArray.append_empty.symm⟩ fun _ _ _ => ⟨rfl, rfl⟩)
  have hstop : start.toUInt64.toNat + w.current.written = start + held.length := by
    rw [hstart, hwritten]
  refine ⟨_, finish_eq hrecord hstop hclose houter hlayer hcursors, ?_, rfl, rfl, rfl⟩
  exact
    { outer := houter
      layer := hlayer
      next := rfl
      run := rfl
      cursors := Array.size_setIfInBounds
      free := fun l => by
        show ((w.cursors.setIfInBounds layer (start + held.length))[l]?).getD w.raw.args.size = _
        by_cases hl : l = layer
        · rw [if_pos hl, hl, Array.getElem?_setIfInBounds_self_of_lt hcursors]
          rfl
        · rw [if_neg hl, Array.getElem?_setIfInBounds_ne (Ne.symm hl)]
          rfl
      strings := rfl
      args := rfl
      tags := ⟨hcloses.size, hcloses.outside⟩
      exprsSize := Array.size_setIfInBounds
      exprs := fun _ hne => Array.getElem?_setIfInBounds_ne hne.symm
      stores :=
        { record := ⟨offset, hholds, Array.getElem?_setIfInBounds_self_of_lt
            (Array.getElem?_eq_some_iff.mp hrecord).1⟩
          fits := hfits
          args := hsegment.args
          tags := hcloses.final } }

end FlatTree.Writer
