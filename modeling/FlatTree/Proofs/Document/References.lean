import FlatTree.Proofs.Document.Segment

/-!
# Slots that refer to expressions

The word after a run tag says how long the run is, and may look like the tag of an
expression: a run of five slots has the code of expressions there. So the tag of a
slot is to be read together with the one before.

- `ExpressionAt`: a slot of type Expression among tags.
- `expressionAt_compress`: compressed tags have those that the types say.
- `RawBuffer.RefersTo`: a slot of type Expression with its index.
- `RawBuffer.Stores.refersTo_iff`: the arguments of a stored expression refer to
  the expressions among them.
-/

namespace FlatTree

/-- A tag word starts a run. -/
def StartsRun (word : UInt64) : Prop := word &&& Tag.runBit ≠ 0

instance : DecidablePred StartsRun := fun _ => inferInstanceAs (Decidable (_ ≠ _))

/-- A slot has type Expression: its tag says so, and is not the length of a run that
starts in the slot before. -/
def ExpressionAt (tags : Nat → Option UInt64) (slot : Nat) : Prop :=
  tags slot = some SlotType.expression.code ∧
    ∀ before tag, slot = before + 1 → tags before = some tag → ¬ StartsRun tag

theorem not_startsRun_code (type : SlotType) : ¬ StartsRun type.code := by
  cases type <;> decide

theorem startsRun_or_runBit (type : SlotType) : StartsRun (type.code ||| Tag.runBit) := by
  cases type <;> decide

/-- Tags in another place are the same tags, unless a run starts before them. -/
theorem expressionAt_shift {tags words : Nat → Option UInt64} {start n i : Nat}
    (hsame : ∀ j < n, tags (start + j) = words j)
    (hbefore : ∀ before tag, start = before + 1 → tags before = some tag → ¬ StartsRun tag)
    (hi : i < n) : ExpressionAt tags (start + i) ↔ ExpressionAt words i := by
  rw [ExpressionAt, ExpressionAt, hsame i hi]
  refine and_congr_right fun _ => ⟨fun h before tag heq htag => ?_, fun h before tag heq htag => ?_⟩
  · refine h (start + before) tag (by omega) ?_
    rwa [hsame before (by omega)]
  · cases i with
    | zero => exact hbefore before tag heq htag
    | succ i =>
      refine h i tag rfl ?_
      rwa [← hsame i (by omega), show start + i = before by omega]

/-! ## Compressed tags -/

section Compress

open RunPolicy

theorem stretch_expression (n : Nat) :
    document.stretch SlotType.expression.code n = List.replicate n SlotType.expression.code :=
  stretch_of_neverRuns neverRuns_expression n

/-- The slots of a stretch have its type, whatever the words of their tags are. -/
theorem expressionAt_stretch {type : SlotType} {n i : Nat} (hi : i < n) :
    ExpressionAt (fun j => (document.stretch type.code n)[j]?) i ↔ type = .expression := by
  constructor
  · rintro ⟨htag, hbefore⟩
    by_contra hscalar
    have hcode : type.code ≠ SlotType.expression.code :=
      fun h => hscalar (SlotType.code_injective h)
    rw [stretch_document hcode] at htag hbefore
    split at htag
    · next hrun =>
      rw [if_pos hrun] at hbefore
      match i, htag with
      | 0, htag => cases type <;> cases Option.some.inj htag
      | 1, _ => exact hbefore 0 _ rfl rfl (startsRun_or_runBit type)
      | i + 2, htag =>
        have hmem := List.mem_of_getElem? (show (List.replicate (n - 2) type.code)[i]? = _ from htag)
        exact hcode (List.eq_of_mem_replicate hmem).symm
    · exact hcode (List.eq_of_mem_replicate (List.mem_of_getElem? htag)).symm
  · rintro rfl
    rw [stretch_expression]
    refine ⟨List.getElem?_replicate_of_lt hi, fun before tag _ htag => ?_⟩
    rw [List.eq_of_mem_replicate (List.mem_of_getElem? htag)]
    exact not_startsRun_code .expression

/-- The last tag word of a stretch starts no run. -/
theorem not_startsRun_last_stretch {type : SlotType} {n : Nat} {tag : UInt64}
    (h : (document.stretch type.code (n + 1))[n]? = some tag) : ¬ StartsRun tag := by
  suffices htag : tag = type.code from htag ▸ not_startsRun_code type
  by_cases hcode : type = .expression
  · subst hcode
    rw [stretch_expression] at h
    exact List.eq_of_mem_replicate (List.mem_of_getElem? h)
  · rw [stretch_document fun h => hcode (SlotType.code_injective h)] at h
    split at h
    · next hrun =>
      -- A run has further slots after the length.
      obtain ⟨m, rfl⟩ : ∃ m, n = m + 2 := ⟨n - 2, by rw [documentMinimum] at hrun; omega⟩
      exact List.eq_of_mem_replicate (List.mem_of_getElem? h)
    · exact List.eq_of_mem_replicate (List.mem_of_getElem? h)

/-- The last of compressed tag words starts no run. -/
theorem not_startsRun_last_compress {types : List SlotType} {n : Nat} {tag : UInt64}
    (hn : types.length = n + 1)
    (h : (document.compress (types.map SlotType.code))[n]? = some tag) : ¬ StartsRun tag := by
  induction types using stretchInduction generalizing n with
  | nil => cases hn
  | stretch type m later hlater ih =>
    rw [List.map_append, List.map_replicate, compress_stretch (head?_map_code_ne hlater)] at h
    rw [List.length_append, List.length_replicate] at hn
    have hlength := length_stretch valid_document type.code (m + 1)
    cases hlast : later.length with
    | zero =>
      rw [List.getElem?_append_left (by omega), show n = m by omega] at h
      exact not_startsRun_last_stretch h
    | succ k =>
      rw [List.getElem?_append_right (by omega), show n - _ = k by omega] at h
      exact ih hlast h

/-- **Compressed tags have the slots of type Expression that the types say.** -/
theorem expressionAt_compress {types : List SlotType} {i : Nat} (hi : i < types.length) :
    ExpressionAt (fun j => (document.compress (types.map SlotType.code))[j]?) i ↔
      types[i]? = some .expression := by
  induction types using stretchInduction generalizing i with
  | nil => cases hi
  | stretch type n later hlater ih =>
    have hlength := length_stretch valid_document type.code (n + 1)
    rw [List.map_append, List.map_replicate, compress_stretch (head?_map_code_ne hlater)]
    by_cases hfirst : i < n + 1
    · rw [List.getElem?_append_left (by rwa [List.length_replicate]),
        List.getElem?_replicate_of_lt hfirst, Option.some_inj, ← expressionAt_stretch hfirst]
      have hshift := @expressionAt_shift
        (fun j => (document.stretch type.code (n + 1) ++
          document.compress (later.map SlotType.code))[j]?)
        (fun j => (document.stretch type.code (n + 1))[j]?) 0 (n + 1) i
        (fun j hj => by
          rw [Nat.zero_add]
          exact List.getElem?_append_left (by omega))
        (fun before _ h => by cases h) hfirst
      rwa [Nat.zero_add] at hshift
    · obtain ⟨k, rfl⟩ := Nat.exists_eq_add_of_le (Nat.le_of_not_lt hfirst)
      rw [List.length_append, List.length_replicate] at hi
      rw [List.getElem?_append_right (by rw [List.length_replicate]; omega),
        List.length_replicate, Nat.add_sub_cancel_left, ← ih (show k < later.length by omega)]
      -- The last tag before the other types starts no run.
      refine expressionAt_shift (n := later.length) (fun j _ => ?_) (fun before tag heq htag => ?_)
        (by omega)
      · rw [List.getElem?_append_right (by omega), hlength, Nat.add_sub_cancel_left]
      · cases heq
        rw [List.getElem?_append_left (by omega)] at htag
        exact not_startsRun_last_stretch htag

end Compress

/-! ## References in a buffer -/

namespace RawBuffer

/-- A slot refers to an expression: it has type Expression, and the index as its word. -/
def RefersTo (raw : RawBuffer) (slot index : Nat) : Prop :=
  ExpressionAt (raw.tags[·]?) slot ∧ raw.args[slot]? = some index.toUInt64

variable {raw : RawBuffer} {index start : Nat} {head : String} {held : List Slot}

/-- The tags of a stored expression are those of its arguments, compressed. -/
theorem Stores.tags_getElem? (h : raw.Stores .document index head start held) {i : Nat}
    (hi : i < held.length) :
    raw.tags[start + i]? =
      (RunPolicy.document.compress ((held.map Slot.type).map SlotType.code))[i]? := by
  have htags := h.tags
  have hlength := RunPolicy.length_compress RunPolicy.valid_document
    (held.map fun s => s.type.code)
  rw [List.length_map] at hlength
  rw [List.map_map]
  have hword := List.getElem?_eq_getElem (hlength.symm ▸ hi)
  exact (htags i _ hword).trans hword.symm

/-- The last tag word of a stored expression starts no run. -/
theorem Stores.not_startsRun_last (h : raw.Stores .document index head start held) {i : Nat}
    {tag : UInt64} (hi : held.length = i + 1) (htag : raw.tags[start + i]? = some tag) :
    ¬ StartsRun tag := by
  rw [h.tags_getElem? (by omega)] at htag
  exact not_startsRun_last_compress (by rw [List.length_map, hi]) htag

/-- **The arguments of a stored expression refer to the expressions among them**, and to
no others. -/
theorem Stores.refersTo_iff (h : raw.Stores .document index head start held)
    (hbefore : ∀ before tag, start = before + 1 → raw.tags[before]? = some tag → ¬ StartsRun tag)
    (hchildren : ∀ child, .expression child ∈ held → child < 2 ^ 64) {i target : Nat}
    (hi : i < held.length) (htarget : target < 2 ^ 64) :
    raw.RefersTo (start + i) target ↔ held[i]? = some (.expression target) := by
  have htypes : ExpressionAt (raw.tags[·]?) (start + i) ↔
      (held.map Slot.type)[i]? = some .expression := by
    rw [← expressionAt_compress (by rwa [List.length_map])]
    exact expressionAt_shift (fun j hj => h.tags_getElem? hj) hbefore hi
  have hs := List.getElem?_eq_getElem hi
  obtain ⟨word, hword, hstored⟩ := h.args i _ hs
  rw [RefersTo, htypes, hword, List.getElem?_map, hs]
  constructor
  · rintro ⟨htype, hindex⟩
    cases hs' : held[i] with
    | scalar value =>
      rw [hs'] at htype
      cases value <;> cases htype
    | expression child =>
      rw [hs'] at hstored
      cases hstored
      have hchild := hchildren child (hs' ▸ List.getElem_mem hi)
      have hwords := congrArg UInt64.toNat (Option.some.inj hindex)
      rw [UInt64.toNat_ofNat_of_lt' hchild, UInt64.toNat_ofNat_of_lt' htarget] at hwords
      rw [hwords]
  · intro heq
    rw [Option.some.inj heq] at hstored
    rw [Option.some.inj heq]
    cases hstored
    exact ⟨rfl, rfl⟩

end RawBuffer

end FlatTree
