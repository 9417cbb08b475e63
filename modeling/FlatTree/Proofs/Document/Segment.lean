import FlatTree.Document.Writer
import FlatTree.Proofs.Build.Laid

/-!
# Writing the arguments of one expression

The arguments of an expression stand in a segment of slots, one after another,
but other segments are written between them. So all that writing knows of the
stretch of equal types at the end of a segment is its length, and the tags before
the stretch are final. When the stretch ends, they are compressed with the tags
of all the types before.

- `Segment`: what the slots of a segment hold, and the stretch at its end.
- `Writer.closeRun_spec`: when the stretch ends, all tags are final.
- `Fills`, `Closes`: what adding an argument does, and what ending
  the expression does.
-/

namespace FlatTree

namespace RunPolicy

/-- Documents have long runs only. -/
theorem valid_document : document.Valid :=
  valid_some (by decide)

theorem neverRuns_expression : document.NeverRuns SlotType.expression.code := by
  intro length
  rfl

/-- The tags of a stretch of a scalar type. -/
theorem stretch_document {code : UInt64} (hcode : code ≠ SlotType.expression.code) (length : Nat) :
    document.stretch code length =
      if documentMinimum ≤ length then
        (code ||| Tag.runBit) :: length.toUInt64 :: List.replicate (length - 2) code
      else List.replicate length code := by
  have hruns : document.makesRun code length = decide (documentMinimum ≤ length) := by
    show ((false || code != SlotType.expression.code) && decide (documentMinimum ≤ length)) = _
    rw [bne_iff_ne.mpr hcode]
    rfl
  rw [stretch, hruns]
  simp only [decide_eq_true_eq]

/-- The tags of types that end with a stretch of a scalar type. -/
theorem compress_append_replicate {closed : List UInt64} {code : UInt64}
    (h : closed.getLast? ≠ some code) (length : Nat) :
    document.compress (closed ++ List.replicate length code) =
      document.compress closed ++ document.stretch code length := by
  cases length with
  | zero =>
    have hnone : document.stretch code 0 = [] := by
      have hruns : document.makesRun code 0 = false := Bool.and_false _
      rw [stretch, hruns]
      rfl
    rw [hnone, List.append_nil, List.replicate_zero, List.append_nil]
  | succ n =>
    have hempty : document.compress [] = [] := by
      rw [compress]
    have hstretch := @compress_stretch document code n [] (by simp)
    rw [List.append_nil, hempty, List.append_nil] at hstretch
    rw [compress_append, hstretch]
    intro last hlast hfirst
    cases hfirst
    exact absurd hlast h

end RunPolicy

/-- A scalar has no type code of expressions. -/
theorem Scalar.code_ne (value : Scalar) : value.type.code ≠ SlotType.expression.code := by
  intro h
  have htype := SlotType.code_injective h
  cases value <;> cases htype

/-! ## Segments -/

/-- Types fall into those whose tags are final and a stretch of a scalar type at
the end, which is as long as possible. -/
structure EndsWith (codes : List UInt64) (run : Nat) (closed : List UInt64) (code : UInt64) :
    Prop where
  codes : codes = closed ++ List.replicate run code
  scalar : code ≠ SlotType.expression.code
  longest : closed.getLast? ≠ some code
  none : run = 0 → ∀ last, closed.getLast? = some last → last = SlotType.expression.code

theorem EndsWith.length_eq {held : List Slot} {run : Nat} {closed : List UInt64} {code : UInt64}
    (hends : EndsWith (held.map fun s => s.type.code) run closed code) :
    held.length = closed.length + run := by
  have hlength := congrArg List.length hends.codes
  rwa [List.length_map, List.length_append, List.length_replicate] at hlength

/-- Slots from `start` on hold the arguments of an expression that is written,
with a stretch of `run` equal scalar types at the end. -/
structure Segment (raw : RawBuffer) (start run : Nat) (held : List Slot) : Prop where
  args : StandsAt raw.SlotHolds start held
  tags : ∃ closed code, EndsWith (held.map fun s => s.type.code) run closed code ∧
    StandsAt raw.TagHolds start
      (RunPolicy.document.compress closed ++ List.replicate run code)

/-- All tags of a segment are final, and another argument stands after it. -/
structure Followed (raw : RawBuffer) (start : Nat) (held : List Slot) (s : Slot) : Prop where
  args : StandsAt raw.SlotHolds start held
  tags : StandsAt raw.TagHolds start
    (RunPolicy.document.compress (held.map fun s => s.type.code))
  slot : raw.SlotHolds (start + held.length) s
  tag : raw.TagHolds (start + held.length) s.type.code

/-- The last argument of a stretch has a tag of its own, as long as the stretch is
open. -/
theorem EndsWith.tagHolds_last {raw : RawBuffer} {start run k : Nat} {held : List Slot}
    {closed : List UInt64} {code : UInt64}
    (hends : EndsWith (held.map fun s => s.type.code) run closed code)
    (htags : StandsAt raw.TagHolds start
      (RunPolicy.document.compress closed ++ List.replicate run code))
    (hrun : run ≠ 0) (hk : held.length = k + 1) : raw.TagHolds (start + k) code := by
  have hlength := hends.length_eq
  have hlast := htags.right (run - 1) code (List.getElem?_replicate_of_lt (by omega))
  rw [RunPolicy.length_compress RunPolicy.valid_document] at hlast
  rwa [show start + k = start + closed.length + (run - 1) by omega]

namespace Segment

variable {raw next : RawBuffer} {start run : Nat} {held : List Slot} {s : Slot}

/-- An expression starts with no arguments. -/
theorem nil (raw : RawBuffer) (start : Nat) : Segment raw start 0 [] where
  args := .nil
  tags := by
    refine ⟨[], SlotType.bool.code, ⟨rfl, by decide, by decide, fun _ _ h => by cases h⟩, ?_⟩
    rw [RunPolicy.compress]
    exact .nil

theorem run_le (h : Segment raw start run held) : run ≤ held.length := by
  obtain ⟨closed, code, hends, -⟩ := h.tags
  have hlength := hends.length_eq
  omega

/-- A segment does not change with the slots outside of it. -/
theorem of_sameAt (h : Segment raw start run held)
    (hstrings : ∃ more, next.strings = raw.strings ++ more)
    (hsame : ∀ slot, start ≤ slot → slot < start + held.length → raw.SameAt next slot) :
    Segment next start run held := by
  obtain ⟨closed, code, hends, htags⟩ := h.tags
  refine ⟨RawBuffer.standsAt_slotHolds_of_sameAt h.args hstrings hsame, closed, code, hends, ?_⟩
  refine htags.mono fun slot word hstart hstop hword => ?_
  rw [List.length_append, RunPolicy.length_compress RunPolicy.valid_document,
    List.length_replicate, ← hends.length_eq] at hstop
  exact (hsame slot hstart hstop).2.trans hword

/-- The stretch goes on with another argument of its type. -/
theorem push_same (h : Segment raw start run held) {closed : List UInt64} {code : UInt64}
    (hends : EndsWith (held.map fun s => s.type.code) run closed code)
    (htags : StandsAt raw.TagHolds start
      (RunPolicy.document.compress closed ++ List.replicate run code))
    (hslot : raw.SlotHolds (start + held.length) s)
    (htag : raw.TagHolds (start + held.length) code) (hs : s.type.code = code) :
    Segment raw start (run + 1) (held ++ [s]) := by
  refine ⟨h.args.append (.singleton hslot), closed, code,
    ⟨?_, hends.scalar, hends.longest, fun hzero => absurd hzero (Nat.succ_ne_zero run)⟩, ?_⟩
  · rw [List.map_append, hends.codes, List.replicate_succ', ← List.append_assoc]
    simp only [List.map_cons, List.map_nil, hs]
  · rw [List.replicate_succ', ← List.append_assoc]
    refine htags.append (.singleton ?_)
    rw [List.length_append, RunPolicy.length_compress RunPolicy.valid_document,
      List.length_replicate, ← hends.length_eq]
    exact htag

/-- A stretch starts with a scalar of another type than the argument before. -/
theorem push_new (h : Followed raw start held s) (hs : s.type.code ≠ SlotType.expression.code)
    (hlast : (held.map fun s => s.type.code).getLast? ≠ some s.type.code) :
    Segment raw start 1 (held ++ [s]) := by
  refine ⟨h.args.append (.singleton h.slot), held.map fun s => s.type.code, s.type.code,
    ⟨?_, hs, hlast, fun hone => absurd hone Nat.one_ne_zero⟩, h.tags.append (.singleton ?_)⟩
  · rw [List.map_append]
    rfl
  · rw [RunPolicy.length_compress RunPolicy.valid_document, List.length_map]
    exact h.tag

/-- No stretch is open after an expression. -/
theorem push_expression {index : Nat} (h : Followed raw start held (.expression index)) :
    Segment raw start 0 (held ++ [.expression index]) := by
  refine ⟨h.args.append (.singleton h.slot),
    (held ++ [Slot.expression index]).map fun s => s.type.code, SlotType.bool.code,
    ⟨(List.append_nil _).symm, by decide, ?_, ?_⟩, ?_⟩
  · rw [List.map_append, List.map_singleton, List.getLast?_concat]
    show some SlotType.expression.code ≠ some SlotType.bool.code
    decide
  · intro _ last hlast
    rw [List.map_append, List.map_singleton, List.getLast?_concat] at hlast
    exact (Option.some.inj hlast).symm
  · -- Expressions never become runs, not even next to each other.
    have hjoin : RunPolicy.document.compress
        ((held.map fun s => s.type.code) ++ [SlotType.expression.code]) =
          RunPolicy.document.compress (held.map fun s => s.type.code) ++
            RunPolicy.document.compress [SlotType.expression.code] := by
      refine RunPolicy.compress_append ?_
      rintro code - hcode
      cases hcode
      exact RunPolicy.neverRuns_expression
    have hsingle : RunPolicy.document.compress [SlotType.expression.code] =
        [SlotType.expression.code] := by
      decide +kernel
    rw [List.map_append, List.replicate_zero, List.append_nil]
    show StandsAt _ _ (RunPolicy.document.compress (_ ++ [SlotType.expression.code]))
    rw [hjoin, hsingle]
    refine h.tags.append (.singleton ?_)
    rw [RunPolicy.length_compress RunPolicy.valid_document, List.length_map]
    exact h.tag

end Segment

/-! ## The end of a stretch -/

section RunTags

variable {tags : Array UInt64} {first run : Nat} {code : UInt64}

/-- Tags with a run, where the stretch of a code was. -/
def runTags (tags : Array UInt64) (first run : Nat) (code : UInt64) : Array UInt64 :=
  (tags.setIfInBounds first (code ||| Tag.runBit)).setIfInBounds (first + 1) run.toUInt64

@[simp] theorem size_runTags : (runTags tags first run code).size = tags.size := by
  rw [runTags, Array.size_setIfInBounds, Array.size_setIfInBounds]

/-- A run takes the place of two tags. -/
theorem getElem?_runTags_ne {slot : Nat} (h : slot ≠ first) (h' : slot ≠ first + 1) :
    (runTags tags first run code)[slot]? = tags[slot]? := by
  rw [runTags, Array.getElem?_setIfInBounds_ne h'.symm, Array.getElem?_setIfInBounds_ne h.symm]

theorem standsAt_runTags
    (h : StandsAt (fun slot word => tags[slot]? = some word) first (List.replicate run code))
    (hrun : 2 ≤ run) :
    StandsAt (fun slot word => (runTags tags first run code)[slot]? = some word) first
      ((code ||| Tag.runBit) :: run.toUInt64 :: List.replicate (run - 2) code) := by
  have htag : ∀ i, i < run → tags[first + i]? = some code :=
    fun i hi => h i code (List.getElem?_replicate_of_lt hi)
  have hsize : first + 1 < tags.size := (Array.getElem?_eq_some_iff.mp (htag 1 hrun)).1
  intro i word hword
  match i, hword with
  | 0, hword =>
    cases hword
    rw [Nat.add_zero, runTags, Array.getElem?_setIfInBounds_ne (by omega)]
    exact Array.getElem?_setIfInBounds_self_of_lt (by omega)
  | 1, hword =>
    cases hword
    exact Array.getElem?_setIfInBounds_self_of_lt (by simpa using hsize)
  | i + 2, hword =>
    rw [List.getElem?_cons_succ, List.getElem?_cons_succ, List.getElem?_replicate] at hword
    split at hword
    · next hi =>
      cases hword
      rw [getElem?_runTags_ne (by omega) (by omega)]
      exact htag (i + 2) (by omega)
    · cases hword

end RunTags

/-- No tags change but those of some slots. -/
structure Retags (raw : RawBuffer) (start stop : Nat) (tags : Array UInt64) : Prop where
  size : tags.size = raw.tags.size
  outside : ∀ slot, slot < start ∨ stop ≤ slot → tags[slot]? = raw.tags[slot]?

theorem Retags.refl (raw : RawBuffer) (start stop : Nat) : Retags raw start stop raw.tags :=
  ⟨rfl, fun _ _ => rfl⟩

/-- The tags of a segment become final, and no others change. -/
structure Closes (raw : RawBuffer) (start : Nat) (held : List Slot) (tags : Array UInt64) : Prop
    extends Retags raw start (start + held.length) tags where
  final : StandsAt (fun slot word => tags[slot]? = some word) start
    (RunPolicy.document.compress (held.map fun s => s.type.code))

section Closes

variable {raw : RawBuffer} {start run : Nat} {held : List Slot} {closed : List UInt64}
  {code : UInt64}

/-- The final tags of a segment are those before the stretch, and those of it. -/
theorem EndsWith.compress_eq (hends : EndsWith (held.map fun s => s.type.code) run closed code) :
    RunPolicy.document.compress (held.map fun s => s.type.code) =
      RunPolicy.document.compress closed ++
        if RunPolicy.documentMinimum ≤ run then
          (code ||| Tag.runBit) :: run.toUInt64 :: List.replicate (run - 2) code
        else List.replicate run code := by
  rw [hends.codes, RunPolicy.compress_append_replicate hends.longest,
    RunPolicy.stretch_document hends.scalar]

/-- A run in place of a long stretch makes the tags of its segment final. -/
theorem closes_runTags (hends : EndsWith (held.map fun s => s.type.code) run closed code)
    (htags : StandsAt raw.TagHolds start
      (RunPolicy.document.compress closed ++ List.replicate run code))
    (hlong : RunPolicy.documentMinimum ≤ run) :
    Closes raw start held (runTags raw.tags (start + closed.length) run code) := by
  have hlength := hends.length_eq
  have htwo : 2 ≤ run := Nat.le_trans (by decide) hlong
  have hclosed : (RunPolicy.document.compress closed).length = closed.length :=
    RunPolicy.length_compress RunPolicy.valid_document closed
  have hstretch := htags.right
  rw [hclosed] at hstretch
  refine ⟨⟨size_runTags, fun slot hslot => getElem?_runTags_ne (by omega) (by omega)⟩, ?_⟩
  rw [hends.compress_eq, if_pos hlong]
  refine StandsAt.append ?_ ?_
  · -- The tags before the stretch are those that were there.
    refine htags.left.mono fun slot word hstart hstop hword => ?_
    rw [hclosed] at hstop
    exact (getElem?_runTags_ne (by omega) (by omega)).trans hword
  · rw [hclosed]
    exact standsAt_runTags hstretch htwo

end Closes

namespace Writer

variable {w : Writer} {start : Nat} {held : List Slot}

/-- A stretch that ends makes the tags of its segment final. -/
theorem closeRun_spec (h : Segment w.raw start w.run held) :
    ∃ tags, w.closeRun (start + held.length) =
        some { w with raw := { w.raw with tags }, run := 0 } ∧
      Closes w.raw start held tags := by
  obtain ⟨closed, code, hends, htags⟩ := h.tags
  have hlength := hends.length_eq
  by_cases hshort : w.run < RunPolicy.documentMinimum
  · -- A short stretch stays slot by slot, as it was written.
    refine ⟨w.raw.tags, ?_, .refl _ _ _, ?_⟩
    · rw [closeRun, if_pos hshort]
    · rw [hends.compress_eq, if_neg (Nat.not_le.mpr hshort)]
      exact htags
  · have hlong : RunPolicy.documentMinimum ≤ w.run := Nat.le_of_not_lt hshort
    have htwo : 2 ≤ w.run := Nat.le_trans (by decide) hlong
    have hfirst : start + held.length - w.run = start + closed.length := by omega
    have hstretch := htags.right
    rw [RunPolicy.length_compress RunPolicy.valid_document] at hstretch
    have htag : w.raw.tags[start + closed.length]? = some code :=
      hstretch 0 code (List.getElem?_replicate_of_lt (by omega))
    have hnext : w.raw.tags[start + closed.length + 1]? = some code :=
      hstretch 1 code (List.getElem?_replicate_of_lt (by omega))
    refine ⟨runTags w.raw.tags (start + closed.length) w.run code, ?_,
      closes_runTags hends htags hlong⟩
    rw [closeRun, if_neg hshort, if_pos (by omega)]
    simp only [hfirst, htag]
    show (if start + closed.length + 1 < w.raw.tags.size then _ else _) = _
    rw [if_pos (Array.getElem?_eq_some_iff.mp hnext).1]
    rfl

end Writer

/-! ## One more argument -/

namespace RawBuffer

variable {raw : RawBuffer} {slot : Nat} {word tag : UInt64}

/-- A buffer with other words in one slot. -/
def put (raw : RawBuffer) (slot : Nat) (word tag : UInt64) : RawBuffer :=
  { raw with
    args := raw.args.setIfInBounds slot word
    tags := raw.tags.setIfInBounds slot tag }

theorem sameAt_put {other : Nat} (h : other ≠ slot) : raw.SameAt (raw.put slot word tag) other :=
  ⟨Array.getElem?_setIfInBounds_ne h.symm, Array.getElem?_setIfInBounds_ne h.symm⟩

theorem slotHolds_put {s : Slot} (hslot : slot < raw.args.size)
    (hstored : s.StoredAs raw.strings word) : (raw.put slot word tag).SlotHolds slot s :=
  ⟨word, Array.getElem?_setIfInBounds_self_of_lt hslot, hstored⟩

theorem tagHolds_put (hslot : slot < raw.tags.size) : (raw.put slot word tag).TagHolds slot tag :=
  Array.getElem?_setIfInBounds_self_of_lt hslot

end RawBuffer

/-- What adding an argument to a segment changes in a buffer. -/
structure Fills (raw : RawBuffer) (start : Nat) (held : List Slot) (s : Slot) (next : RawBuffer)
    (run : Nat) : Prop where
  strings : ∃ more, next.strings = raw.strings ++ more
  argsSize : next.args.size = raw.args.size
  tagsSize : next.tags.size = raw.tags.size
  outside : ∀ slot, slot < start ∨ start + held.length < slot → raw.SameAt next slot
  segment : Segment next start run (held ++ [s])

section Fills

variable {raw : RawBuffer} {start run : Nat} {held : List Slot} {s : Slot} {tags : Array UInt64}

/-- Without a stretch at the end, the tags of a segment are final. -/
theorem Segment.closes (h : Segment raw start 0 held) : Closes raw start held raw.tags := by
  obtain ⟨closed, code, hends, htags⟩ := h.tags
  refine ⟨.refl _ _ _, ?_⟩
  rw [hends.codes]
  rw [List.replicate_zero, List.append_nil] at htags ⊢
  exact htags

theorem Segment.put (h : Segment raw start run held) (word tag : UInt64) :
    Segment (raw.put (start + held.length) word tag) start run held :=
  h.of_sameAt ⟨.empty, ByteArray.append_empty.symm⟩
    fun _ _ hstop => RawBuffer.sameAt_put (Nat.ne_of_lt hstop)

/-- An argument stands after a segment of which the tags become final. -/
theorem Closes.followed (hcloses : Closes raw start held tags) (h : Segment raw start run held)
    (hslot : raw.SlotHolds (start + held.length) s)
    (htag : raw.TagHolds (start + held.length) s.type.code) :
    Followed { raw with tags } start held s where
  args := h.args
  tags := hcloses.final
  slot := hslot
  tag := (hcloses.outside _ (.inr (Nat.le_refl _))).trans htag

theorem Retags.fills {word : UInt64}
    (hretags : Retags (raw.put (start + held.length) word s.type.code) start (start + held.length)
      tags)
    (hsegment : Segment { raw.put (start + held.length) word s.type.code with tags } start run
      (held ++ [s])) :
    Fills raw start held s { raw.put (start + held.length) word s.type.code with tags } run where
  strings := ⟨.empty, ByteArray.append_empty.symm⟩
  argsSize := Array.size_setIfInBounds
  tagsSize := hretags.size.trans Array.size_setIfInBounds
  outside slot houtside := by
    have hput : raw.SameAt (raw.put (start + held.length) word s.type.code) slot :=
      RawBuffer.sameAt_put (by omega)
    exact ⟨hput.1, (hretags.outside slot (by omega)).trans hput.2⟩
  segment := hsegment

end Fills

end FlatTree
