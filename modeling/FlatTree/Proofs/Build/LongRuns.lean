import FlatTree.Proofs.Build.Stretch

/-!
# Runs longer than half a word

A run tag is followed by a whole word for the length of the run, of which only the low half is
read. If that still says two or more, the walk takes a shorter run and meets the other slots one
by one, each with a tag of its own that it would have passed over otherwise. If it says less, the
walk ends in a fault.

- `RunPolicy.Legible`: the low half of the length of each run says two or more.
- `RunPolicy.expands_compress`: then a walk over compressed tags expands to the types.
- `Regions.Breaks`, `RunPolicy.breaks_compress`: else it breaks off at a run that is too short.
- `RunPolicy.mem_zipIdx_of_toList_compress`, `RunPolicy.exists_of_error_mem_toList_compress`:
  either way it gives slots no other types, and has no other fault.
-/

namespace FlatTree

namespace Regions

variable {r : Regions} {range : SlotRange} {places : List (SlotType × Nat)}

/-- A walk over a range expands to the first of these places, and then breaks off at a run of
which the length that is read is too short. -/
def Breaks (r : Regions) (range : SlotRange) (places : List (SlotType × Nat)) : Prop :=
  ∃ (blocks : List Block) (slot : Nat) (rest : List (SlotType × Nat)),
    (Blocks.ofRange range).toList r =
      blocks.map .ok ++ [.error (.malformedRun slot .tooShort)] ∧
    blocks.flatMap Block.places ++ rest = places

section Append

variable {blocks : List Block} {start next stop : Nat}

/-- A walk that starts with some blocks expands to their places first. -/
theorem Expands.append
    (hblocks : Blocks.toList r ⟨start, stop⟩ = blocks.map .ok ++ Blocks.toList r ⟨next, stop⟩)
    (h : r.Expands ⟨next, stop⟩ places) :
    r.Expands ⟨start, stop⟩ (blocks.flatMap Block.places ++ places) := by
  obtain ⟨later, hlater, rfl⟩ := h
  refine ⟨blocks ++ later, ?_, List.flatMap_append⟩
  rw [List.map_append, ← hlater]
  exact hblocks

theorem Breaks.append
    (hblocks : Blocks.toList r ⟨start, stop⟩ = blocks.map .ok ++ Blocks.toList r ⟨next, stop⟩)
    (h : r.Breaks ⟨next, stop⟩ places) :
    r.Breaks ⟨start, stop⟩ (blocks.flatMap Block.places ++ places) := by
  obtain ⟨later, slot, rest, hlater, rfl⟩ := h
  refine ⟨blocks ++ later, slot, rest, ?_, ?_⟩
  · rw [List.map_append, List.append_assoc, ← hlater]
    exact hblocks
  · rw [List.flatMap_append, List.append_assoc]

end Append

/-- The blocks of a walk that expands have their places among all. -/
theorem Expands.mem_of_mem_places {block : Block} (h : r.Expands range places)
    (hblock : .ok block ∈ (Blocks.ofRange range).toList r) :
    ∀ place ∈ block.places, place ∈ places := by
  obtain ⟨blocks, hblocks, rfl⟩ := h
  rw [hblocks] at hblock
  obtain ⟨_, hmem, heq⟩ := List.mem_map.mp hblock
  cases heq
  exact fun place hplace => List.mem_flatMap_of_mem hmem hplace

/-- So do those before a walk breaks off. -/
theorem Breaks.mem_of_mem_places {block : Block} (h : r.Breaks range places)
    (hblock : .ok block ∈ (Blocks.ofRange range).toList r) :
    ∀ place ∈ block.places, place ∈ places := by
  obtain ⟨blocks, slot, rest, hblocks, rfl⟩ := h
  rw [hblocks, List.mem_append, List.mem_singleton] at hblock
  obtain ⟨_, hmem, heq⟩ := List.mem_map.mp (hblock.resolve_right fun heq => by cases heq)
  cases heq
  exact fun place hplace => List.mem_append_left _ (List.mem_flatMap_of_mem hmem hplace)

/-! ## The fault of a walk -/

variable {fault : Fault}

theorem Expands.error_not_mem (h : r.Expands range places) :
    .error fault ∉ (Blocks.ofRange range).toList r := by
  obtain ⟨blocks, hblocks, -⟩ := h
  intro hfault
  rw [hblocks] at hfault
  obtain ⟨_, -, heq⟩ := List.mem_map.mp hfault
  cases heq

theorem Breaks.exists_error_mem (h : r.Breaks range places) :
    ∃ slot, .error (.malformedRun slot .tooShort) ∈ (Blocks.ofRange range).toList r := by
  obtain ⟨blocks, slot, rest, hblocks, -⟩ := h
  refine ⟨slot, ?_⟩
  rw [hblocks]
  exact List.mem_append_right _ List.mem_cons_self

theorem Breaks.exists_of_error_mem (h : r.Breaks range places)
    (hfault : .error fault ∈ (Blocks.ofRange range).toList r) :
    ∃ slot, fault = .malformedRun slot .tooShort := by
  obtain ⟨blocks, slot, rest, hblocks, -⟩ := h
  rw [hblocks, List.mem_append, List.mem_singleton] at hfault
  rcases hfault with hmem | heq
  · obtain ⟨_, -, heq⟩ := List.mem_map.mp hmem
    cases heq
  · cases heq
    exact ⟨slot, rfl⟩

end Regions

namespace RunPolicy

variable {policy : RunPolicy} {types later : List SlotType} {type : SlotType}

/-! ## The length of a run -/

/-- Of the length of each run, the low half of its word says two or more. -/
def Legible (policy : RunPolicy) (types : List SlotType) : Prop :=
  ∀ type first length, policy.IsRun types type first length → 2 ≤ length % 2 ^ 32

theorem legible_nil : policy.Legible [] := by
  intro type first length hrun
  cases hrun.stretch.same 0 hrun.stretch.pos

/-- Runs are legible stretch by stretch. -/
theorem legible_replicate_append {n : Nat} (hlater : later.head? ≠ some type) :
    policy.Legible (List.replicate (n + 1) type ++ later) ↔
      (policy.makesRun type.code (n + 1) = true → 2 ≤ (n + 1) % 2 ^ 32) ∧
        policy.Legible later := by
  simp only [Legible, isRun_iff, isStretch_replicate_append hlater]
  constructor
  · intro h
    exact ⟨fun hrun => h type 0 (n + 1) ⟨.inl ⟨rfl, rfl, rfl⟩, hrun⟩,
      fun other first length ⟨hstretch, hrun⟩ =>
        h other (n + 1 + first) length ⟨.inr ⟨first, rfl, hstretch⟩, hrun⟩⟩
  · rintro ⟨hfirst, h⟩ other first length ⟨⟨rfl, rfl, rfl⟩ | ⟨k, rfl, hstretch⟩, hrun⟩
    · exact hfirst hrun
    · exact h other k length ⟨hstretch, hrun⟩

/-- Where half a word can count the types, it says all of each length. -/
theorem legible_of_length_lt (hvalid : policy.Valid) (h : types.length < 2 ^ 32) :
    policy.Legible types := by
  intro type first length hrun
  obtain ⟨hstretch, hmakes⟩ := isRun_iff.mp hrun
  have htwo := two_le_of_makesRun hvalid hmakes
  obtain ⟨hlast, -⟩ := List.getElem?_eq_some_iff.mp (hstretch.same (length - 1) (by omega))
  rwa [Nat.mod_eq_of_lt (by omega)]

/-- Where expressions are in no runs, there is no run among expressions only. -/
theorem legible_of_forall_eq_expression (hpolicy : policy.expressions = false)
    (h : ∀ type ∈ types, type = .expression) : policy.Legible types := by
  intro type first length hrun
  have htype := h type (List.mem_of_getElem? (hrun.stretch.same 0 hrun.stretch.pos))
  rw [hrun.eligible htype] at hpolicy
  cases hpolicy

/-! ## Walking over a stretch -/

section Walk

variable {r : Regions} {cursor start stop length : Nat}

/-- After a run of which the length is cut, the tags of its other slots are read one by one. -/
theorem tagsAt_replicate_of_run {code first second : UInt64} {skipped : Nat}
    (htags : TagsAt r cursor (first :: second :: List.replicate (length - 2) code))
    (hskipped : 2 ≤ skipped) :
    TagsAt r (cursor + skipped) (List.replicate (length - skipped) code) := by
  intro i word hword
  obtain ⟨k, rfl⟩ := Nat.exists_eq_add_of_le hskipped
  have hi : i < length - (2 + k) := by
    simpa using (List.getElem?_eq_some_iff.mp hword).1
  rw [List.getElem?_replicate_of_lt hi] at hword
  cases hword
  rw [show cursor + (2 + k) + i = cursor + (k + i + 2) by omega]
  exact htags (k + i + 2) code (List.getElem?_replicate_of_lt (show k + i < length - 2 by omega))

/-- A run of which the length is cut is followed by its other slots. -/
theorem toList_run_mod
    (htags : TagsAt r cursor
      ((type.code ||| Tag.runBit) :: length.toUInt64 :: List.replicate (length - 2) type.code))
    (hfits : cursor + length ≤ stop) (hlegible : 2 ≤ length % 2 ^ 32) :
    Blocks.toList r ⟨cursor, stop⟩ =
      .ok ⟨type, ⟨cursor, cursor + length % 2 ^ 32⟩⟩ ::
        (((List.range' (cursor + length % 2 ^ 32) (length - length % 2 ^ 32)).map fun slot =>
          .ok ⟨type, ⟨slot, slot + 1⟩⟩) ++ Blocks.toList r ⟨cursor + length, stop⟩) := by
  have hcut : length % 2 ^ 32 ≤ length := Nat.mod_le _ _
  have hread : Tag.read r cursor = .ok (.run type (length % 2 ^ 32)) :=
    (read_run_mod (htags 0 _ rfl) (htags 1 _ rfl)).trans (if_neg (Nat.not_lt.mpr hlegible))
  rw [Blocks.toList_of_read hread (show cursor + length % 2 ^ 32 ≤ stop by omega)]
  refine congrArg _ ?_
  show Blocks.toList r ⟨cursor + length % 2 ^ 32, stop⟩ = _
  rw [toList_singles (tagsAt_replicate_of_run htags hlegible) (by omega), Nat.add_assoc,
    Nat.add_sub_cancel' hcut]

/-- **A walk over the tags of a legible stretch**, however long it is, expands to the slots of
the stretch. -/
theorem exists_toList_stretch (htags : TagsAt r cursor (policy.stretch type.code length))
    (hfits : cursor + length ≤ stop)
    (hlegible : policy.makesRun type.code length = true → 2 ≤ length % 2 ^ 32) :
    ∃ blocks : List Block,
      Blocks.toList r ⟨cursor, stop⟩ =
        blocks.map .ok ++ Blocks.toList r ⟨cursor + length, stop⟩ ∧
      blocks.flatMap Block.places = (List.replicate length type).zipIdx cursor := by
  rw [stretch] at htags
  split at htags
  · next hrun =>
    have hcut : length % 2 ^ 32 + (length - length % 2 ^ 32) = length :=
      Nat.add_sub_cancel' (Nat.mod_le _ _)
    refine ⟨⟨type, ⟨cursor, cursor + length % 2 ^ 32⟩⟩ ::
      (List.range' (cursor + length % 2 ^ 32) (length - length % 2 ^ 32)).map fun slot =>
        ⟨type, ⟨slot, slot + 1⟩⟩, ?_, ?_⟩
    · rw [toList_run_mod htags hfits (hlegible hrun), List.map_cons, List.map_map]
      rfl
    · have hall : List.replicate length type =
          List.replicate (length % 2 ^ 32) type ++
            List.replicate (length - length % 2 ^ 32) type := by
        rw [List.replicate_append_replicate, hcut]
      rw [List.flatMap_cons, places_run, places_singles, hall, List.zipIdx_append,
        List.length_replicate]
  · refine ⟨(List.range' cursor length).map fun slot => ⟨type, ⟨slot, slot + 1⟩⟩, ?_,
      places_singles type cursor length⟩
    rw [toList_singles htags hfits, List.map_map]
    rfl

/-- A walk ends at a run of which the length that is read is too short. -/
theorem toList_stretch_tooShort (htags : TagsAt r cursor (policy.stretch type.code length))
    (hcursor : cursor < stop) (hrun : policy.makesRun type.code length = true)
    (hshort : length % 2 ^ 32 < 2) :
    Blocks.toList r ⟨cursor, stop⟩ = [.error (.malformedRun cursor .tooShort)] := by
  rw [stretch, if_pos hrun] at htags
  have hread : Tag.read r cursor = .error (.malformedRun cursor .tooShort) :=
    (read_run_mod (htags 0 _ rfl) (htags 1 _ rfl)).trans (if_pos hshort)
  have hnext : Blocks.next r ⟨cursor, stop⟩ =
      some (.error (.malformedRun cursor .tooShort), ⟨stop, stop⟩) := by
    rw [Blocks.next, if_neg (Nat.not_le.mpr hcursor), hread]
  rw [Blocks.toList_of_some hnext, Blocks.toList_of_le (Nat.le_refl _)]

/-! ## Walking over compressed tags -/

/-- **A walk over compressed tags expands to the types**, slot by slot, if their runs are
legible. -/
theorem expands_compress (hvalid : policy.Valid)
    (htags : TagsAt r start (policy.compress (types.map SlotType.code)))
    (hlegible : policy.Legible types) :
    r.Expands ⟨start, start + types.length⟩ (types.zipIdx start) := by
  induction types using stretchInduction generalizing start with
  | nil => exact ⟨[], Blocks.toList_of_le (Nat.le_refl _), rfl⟩
  | stretch type n later hlater ih =>
    obtain ⟨hfirst, hrest⟩ := (legible_replicate_append hlater).mp hlegible
    obtain ⟨hfirstTags, hlaterTags⟩ := tagsAt_replicate_append hvalid hlater htags
    rw [List.length_append, List.zipIdx_append, List.length_replicate,
      ← Nat.add_assoc start (n + 1)]
    obtain ⟨blocks, hblocks, hplaces⟩ :=
      exists_toList_stretch hfirstTags (Nat.le_add_right _ later.length) hfirst
    rw [← hplaces]
    exact Regions.Expands.append hblocks (ih hlaterTags hrest)

/-- Otherwise it breaks off at the first run that is not. -/
theorem breaks_compress (hvalid : policy.Valid)
    (htags : TagsAt r start (policy.compress (types.map SlotType.code)))
    (hlegible : ¬ policy.Legible types) :
    r.Breaks ⟨start, start + types.length⟩ (types.zipIdx start) := by
  induction types using stretchInduction generalizing start with
  | nil => exact absurd legible_nil hlegible
  | stretch type n later hlater ih =>
    rw [legible_replicate_append hlater, not_and_or] at hlegible
    obtain ⟨hfirstTags, hlaterTags⟩ := tagsAt_replicate_append hvalid hlater htags
    by_cases hfirst : policy.makesRun type.code (n + 1) = true → 2 ≤ (n + 1) % 2 ^ 32
    · rw [List.length_append, List.zipIdx_append, List.length_replicate,
        ← Nat.add_assoc start (n + 1)]
      obtain ⟨blocks, hblocks, hplaces⟩ :=
        exists_toList_stretch hfirstTags (Nat.le_add_right _ later.length) hfirst
      rw [← hplaces]
      have hrest := hlegible.resolve_left (not_not_intro hfirst)
      exact Regions.Breaks.append hblocks (ih hlaterTags hrest)
    · obtain ⟨hrun, hshort⟩ := Classical.not_imp.mp hfirst
      have hstop : start < start + (List.replicate (n + 1) type ++ later).length := by
        rw [List.length_append, List.length_replicate]
        omega
      exact ⟨[], start, _,
        toList_stretch_tooShort hfirstTags hstop hrun (Nat.lt_of_not_le hshort), rfl⟩

/-- **A walk over compressed tags gives slots their types**, as far as it goes. -/
theorem mem_zipIdx_of_toList_compress (hvalid : policy.Valid)
    (htags : TagsAt r start (policy.compress (types.map SlotType.code))) {block : Block}
    (hblock : .ok block ∈ Blocks.toList r ⟨start, start + types.length⟩) :
    ∀ place ∈ block.places, place ∈ types.zipIdx start := by
  by_cases hlegible : policy.Legible types
  · exact (expands_compress hvalid htags hlegible).mem_of_mem_places hblock
  · exact (breaks_compress hvalid htags hlegible).mem_of_mem_places hblock

/-- **The one fault of such a walk** is a run of which the length that is read is too short. -/
theorem exists_of_error_mem_toList_compress (hvalid : policy.Valid)
    (htags : TagsAt r start (policy.compress (types.map SlotType.code))) {fault : Fault}
    (hfault : .error fault ∈ Blocks.toList r ⟨start, start + types.length⟩) :
    ∃ slot, fault = .malformedRun slot .tooShort := by
  by_cases hlegible : policy.Legible types
  · exact absurd hfault (expands_compress hvalid htags hlegible).error_not_mem
  · exact (breaks_compress hvalid htags hlegible).exists_of_error_mem hfault

end Walk

end RunPolicy

end FlatTree
