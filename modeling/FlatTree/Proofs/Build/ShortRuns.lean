import FlatTree.Proofs.Build.Laid
import FlatTree.Proofs.Decode.Walk

/-!
# Failing for a short run

Where the length of a run is not read back, a tree that is laid out is not decoded. Nothing else
stands in the way of a tree that has a value: its heads and texts are in the heap, the entries of
its objects and tables are entries, and it may have as many levels as it has. So whatever is
decoded before it fails, it fails for a run that is too short.

- `DecodeError.IsShortRun`: the failure of a run of which the length that is read is too short.
- `FailsShort`: with so many levels left, nothing else fails; `FailsShort.succ` is the step to
  one level more, and `failsShort` what follows by induction.
- `Lays.decodes_or_isShortRun`: what becomes of a tree, by the lengths of its runs.
-/

namespace FlatTree

open Decoded (FailsWith)

/-- A run is shorter than a run may be, by the length that is read. -/
def DecodeError.IsShortRun (e : DecodeError) : Prop :=
  ∃ slot, e.cause = .fault (.malformedRun slot .tooShort)

theorem DecodeError.IsShortRun.blame {e : DecodeError} (h : e.IsShortRun) (index : Nat) :
    (e.blame index).IsShortRun := by
  obtain ⟨slot, h⟩ := h
  exact ⟨slot, (cause_blame index e).trans h⟩

/-- Blame does not change what the failure is. -/
theorem Decoded.FailsWith.isShortRun_blaming {α : Type} {d : Decoded α} {index : Nat}
    (h : d.FailsWith DecodeError.IsShortRun) :
    (Decoded.blaming index d).FailsWith DecodeError.IsShortRun :=
  .blaming fun e he => (h e he).blame index

/-- A map fails like its entries. -/
theorem Eager.failsWith_collect {P : DecodeError → Prop} {entry : Nat → Decoded (String × Value)} :
    ∀ {indices : List Nat} {map : Entries Value}, (∀ index ∈ indices, (entry index).FailsWith P) →
      (Eager.collect entry indices map).FailsWith P
  | [], map, _ => .ok map
  | index :: rest, map, h => by
    obtain ⟨hfirst, hrest⟩ := List.forall_mem_cons.mp h
    exact hfirst.bind fun _ _ => Eager.failsWith_collect hrest

/-! ## One expression -/

namespace RawBuffer.Stores

variable {raw : RawBuffer} {policy : RunPolicy} {index start : Nat} {head : String}
  {held : List Slot} {P : DecodeError → Prop}

section Walk

variable (h : raw.Stores policy index head start held) (hvalid : policy.Valid)

include h hvalid

/-- A walk over a stored expression has no fault but a run that is too short. -/
theorem isShortRun_of_mem_walkPlaces {fault : Fault}
    (hfault : .error fault ∈
      walkPlaces ((Blocks.ofRange ⟨start, start + held.length⟩).toList raw.regions)) :
    (DecodeError.ofFault fault).IsShortRun := by
  have hmem := error_mem_walkPlaces.mp hfault
  rw [← List.length_map Slot.type] at hmem
  obtain ⟨slot, rfl⟩ := RunPolicy.exists_of_error_mem_toList_compress hvalid h.tagsAt hmem
  exact ⟨slot, rfl⟩

variable (hsmall : raw.Small) (hstorable : ∀ s ∈ held, s.Storable)
  (hindex : ∀ child, .expression child ∈ held → child < raw.exprs.size)

include hsmall hstorable hindex

/-- Each place that it comes to is read as one of the arguments. -/
theorem exists_read_of_mem_walkPlaces {place : SlotType × Nat}
    (hplace : .ok place ∈
      walkPlaces ((Blocks.ofRange ⟨start, start + held.length⟩).toList raw.regions)) :
    ∃ s ∈ held, s.type = place.1 ∧ Slot.read raw.regions place.1 place.2 = .ok s := by
  obtain ⟨block, hblock, hmem⟩ := ok_mem_walkPlaces.mp hplace
  obtain ⟨s, hs, word, htype, hword, hstored⟩ := h.exists_storedAs hvalid hblock hmem
  refine ⟨s, hs, htype, ?_⟩
  rw [← htype]
  exact read_of_slotHolds hsmall ⟨word, hword, hstored⟩ (hstorable s hs)
    fun child heq => hindex child (heq ▸ hs)

/-- The children of a stored expression fail like one of them, or for a short run. -/
theorem failsShort_children {child : Nat → Decoded Value}
    (hchild : ∀ next, .expression next ∈ held →
      (child next).FailsWith DecodeError.IsShortRun) :
    (Eager.children raw.regions child index).FailsWith DecodeError.IsShortRun := by
  rw [Eager.children, h.children hsmall.args, Decoded.lift, ok_bind, Eager.blocks_eq_mapM]
  refine .mapM fun place hplace => ?_
  cases place with
  | error fault => exact .error (h.isShortRun_of_mem_walkPlaces hvalid hplace)
  | ok place =>
    obtain ⟨s, hs, -, hread⟩ :=
      h.exists_read_of_mem_walkPlaces hvalid hsmall hstorable hindex hplace
    rw [Decoded.lift, ok_bind, Eager.placeValue, hread, Decoded.lift, ok_bind]
    cases s with
    | scalar value => exact .ok _
    | expression next => exact hchild next hs

/-- Where all arguments are expressions, only a short run keeps them from being entries. -/
theorem failsShort_entries {shape : Shape} (hexpressions : ∀ s ∈ held, s.type = .expression) :
    (Eager.entries raw.regions shape index).FailsWith DecodeError.IsShortRun := by
  rw [Eager.entries, h.children hsmall.args, Decoded.lift, ok_bind,
    Eager.entryIndices_eq_mapM fun _ => Blocks.start_lt_stop_of_mem]
  refine .mapM fun place hplace => ?_
  cases place with
  | error fault => exact .error (h.isShortRun_of_mem_walkPlaces hvalid hplace)
  | ok place =>
    obtain ⟨s, hs, htype, hread⟩ :=
      h.exists_read_of_mem_walkPlaces hvalid hsmall hstorable hindex hplace
    have hexpression : place.1 = .expression := htype.symm.trans (hexpressions s hs)
    rw [hexpression] at hread
    obtain ⟨word, hword, -⟩ := Slot.read_expression.mp hread
    rw [Decoded.lift, ok_bind, Eager.placeEntry, if_pos hexpression, hword]
    exact .ok _

/-- The entries that are found are those that the arguments refer to. -/
theorem expression_mem_of_entries {shape : Shape} {indices : List Nat}
    (hentries : Eager.entries raw.regions shape index = .ok indices) {next : Nat}
    (hnext : next ∈ indices) : .expression next ∈ held := by
  have hfound := Eager.entries_eq_ok.mp hentries
  rw [h.childSlots hsmall hvalid (h.legible_of_childSlots hsmall.args hvalid hfound) hstorable
    hindex] at hfound
  rw [Except.ok.inj hfound]
  exact List.mem_map_of_mem hnext

end Walk

end RawBuffer.Stores

/-! ## The induction on the levels left -/

section Laid

variable {raw : RawBuffer} {policy : RunPolicy} {part : Part} {limit levels : Nat}

/-- With so many levels left, all that is laid out and has a value fails for a short run only. -/
structure FailsShort (raw : RawBuffer) (policy : RunPolicy) (part : Part) (limit levels : Nat) :
    Prop where
  expression : ∀ {index : Nat} {tree : Tree} {value : Value}, Lays raw policy part index tree →
    tree.Storable → tree.levels ≤ levels → tree.promote = some value →
      (Eager.expression raw.regions limit levels index).FailsWith DecodeError.IsShortRun
  entry : ∀ {index : Nat} {head : String} {trees : List Tree} {values : List Value},
    Lays raw policy part index (.node head trees) → (Tree.node head trees).Storable →
    Tree.levelsAll trees + 1 ≤ levels → Tree.promoteAll trees = some values →
      (Eager.rawEntry raw.regions limit levels index).FailsWith DecodeError.IsShortRun

section Step

variable {index start : Nat} {head : String} {held : List Slot} {trees : List Tree}

/-- Where all trees are entries, all slots that they are laid out in hold expressions. -/
theorem SlotsLay.type_eq_expression {IsEntry : Tree → String × Value → Prop}
    {found : List (String × Value)} (hslots : SlotsLay raw policy part held trees)
    (hfound : List.Forall₂ IsEntry trees found)
    (hnode : ∀ value entry, ¬ IsEntry (.scalar value) entry) :
    ∀ s ∈ held, s.type = .expression := by
  intro s hs
  have htype : s.type ∈ trees.map Tree.type := hslots.map_type ▸ List.mem_map_of_mem hs
  obtain ⟨tree, htree, heq⟩ := List.mem_map.mp htype
  obtain ⟨entry, -, hentry⟩ := exists_of_forall₂_left hfound htree
  cases tree with
  | scalar value => exact absurd hentry (hnode value entry)
  | node _ _ => exact heq.symm

variable (h : FailsShort raw policy part limit levels) (hsmall : raw.Small)
  (hvalid : policy.Valid) (hstores : raw.Stores policy index head start held)
  (hslots : SlotsLay raw policy part held trees) (hstorable : Tree.AllStorable trees)

include h hsmall hvalid hstores hslots hstorable

/-- The children of an expression, if the trees below it have values. -/
theorem FailsShort.children (hlevels : Tree.levelsAll trees ≤ levels) {values : List Value}
    (hvalues : Tree.promoteAll trees = some values) :
    (Eager.children raw.regions (Eager.expression raw.regions limit levels) index).FailsWith
      DecodeError.IsShortRun := by
  refine hstores.failsShort_children hvalid hsmall (fun s hs => hslots.storable hstorable hs)
    (fun child hchild => hslots.index_lt hchild) fun next hnext => ?_
  obtain ⟨tree, htree, hlays⟩ := hslots.exists_of_mem hnext
  obtain ⟨value, -, hvalue⟩ := exists_of_forall₂_left (Tree.promoteAll_eq_some.mp hvalues) htree
  exact h.expression hlays (hstorable.of_mem htree)
    (Nat.le_trans (Tree.levels_le_of_mem htree) hlevels) hvalue

omit h in
/-- A map, if the trees below its expression are entries. -/
theorem FailsShort.collect {IsEntry : Tree → String × Value → Prop}
    {found : List (String × Value)} (hfound : List.Forall₂ IsEntry trees found) {shape : Shape}
    {entry : Nat → Decoded (String × Value)} {wrap : Entries Value → Value}
    (hnode : ∀ value found, ¬ IsEntry (.scalar value) found)
    (hentry : ∀ {next tree found}, tree ∈ trees → Lays raw policy part next tree →
      IsEntry tree found → (entry next).FailsWith DecodeError.IsShortRun) :
    FailsWith (Eager.entries raw.regions shape index >>= fun indices =>
      Eager.collect entry indices [] >>= fun map => pure (wrap map)) DecodeError.IsShortRun := by
  have hread : ∀ s ∈ held, s.Storable := fun _ => hslots.storable hstorable
  have hindex : ∀ child, .expression child ∈ held → child < raw.exprs.size :=
    fun _ => hslots.index_lt
  refine (hstores.failsShort_entries hvalid hsmall hread hindex
    (hslots.type_eq_expression hfound hnode)).bind fun indices hindices => ?_
  refine (Eager.failsWith_collect fun next hnext => ?_).bind fun map _ => .ok _
  have hmem := hstores.expression_mem_of_entries hvalid hsmall hread hindex hindices hnext
  obtain ⟨tree, htree, hlays⟩ := hslots.exists_of_mem hmem
  obtain ⟨member, -, hmember⟩ := exists_of_forall₂_left hfound htree
  exact hentry htree hlays hmember

end Step

variable (hsmall : raw.Small) (hvalid : policy.Valid)

include hsmall hvalid

/-- A member of an object has one argument also when it is decoded. -/
theorem FailsShort.member (h : FailsShort raw policy part limit levels) {next : Nat} {tree : Tree}
    {member : String × Value} (hlays : Lays raw policy part next tree) (hstorable : tree.Storable)
    (hlevels : tree.levels ≤ levels) (hmember : tree.IsMember member) :
    FailsWith (Eager.rawEntry raw.regions limit levels next >>= fun raw =>
      objectEntry next raw.2 >>= fun value => pure (raw.1, value)) DecodeError.IsShortRun := by
  obtain ⟨key, value⟩ := member
  obtain ⟨child, rfl, hchild⟩ := hmember
  have hvalues : Tree.promoteAll [child] = some [value] :=
    Tree.promoteAll_cons.mpr ⟨_, _, hchild, rfl, rfl⟩
  refine (h.entry hlays hstorable hlevels hvalues).bind fun (head, arguments) hentry => ?_
  obtain ⟨trees, hunfolds, -, harguments⟩ := (Eager.decodesUnfolding _ _ _).entry.mp hentry
  obtain ⟨heq, -⟩ := hlays.eq_of_unfolds hsmall hvalid hstorable hunfolds
  cases heq
  rw [hvalues] at harguments
  cases harguments
  exact .ok _

/-- One level more: the head decides what the children have to be. -/
theorem FailsShort.succ (h : FailsShort raw policy part limit levels) :
    FailsShort raw policy part limit (levels + 1) := by
  constructor
  case expression =>
    intro index tree value hlays hstorable hlevels hvalue
    cases hlays with
    | @node _ start head held trees hstores _ _ hslots =>
    obtain ⟨hhead, hstorable⟩ := hstorable
    have hbelow : Tree.levelsAll trees ≤ levels := Nat.le_of_succ_le_succ hlevels
    rw [Eager.expression, hstores.headOf hsmall hhead, ok_bind]
    refine FailsWith.isShortRun_blaming ?_
    rw [Tree.promote_node_eq_some] at hvalue
    cases hshape : Shape.ofHead head with
    | list =>
      rw [hshape] at hvalue
      obtain ⟨items, hitems, -⟩ := hvalue
      exact (h.children hsmall hvalid hstores hslots hstorable hbelow hitems).bind fun _ _ => .ok _
    | generic =>
      rw [hshape] at hvalue
      obtain ⟨arguments, harguments, -⟩ := hvalue
      exact (h.children hsmall hvalid hstores hslots hstorable hbelow harguments).bind
        fun _ _ => .ok _
    | object =>
      rw [hshape] at hvalue
      obtain ⟨members, hmembers, -⟩ := hvalue
      refine FailsShort.collect hsmall hvalid hstores hslots hstorable hmembers
        Tree.not_isMember_scalar fun htree hlays hmember => ?_
      exact h.member hsmall hvalid hlays (hstorable.of_mem htree)
        (Nat.le_trans (Tree.levels_le_of_mem htree) hbelow) hmember
    | table =>
      rw [hshape] at hvalue
      obtain ⟨columns, hcolumns, -⟩ := hvalue
      refine FailsShort.collect hsmall hvalid hstores hslots hstorable hcolumns
        Tree.not_isColumn_scalar fun htree hlays hcolumn => ?_
      obtain ⟨key, cells, values, rfl, hvalues, -⟩ := hcolumn
      exact (h.entry hlays (hstorable.of_mem htree)
        (Nat.le_trans (Tree.levels_le_of_mem htree) hbelow) hvalues).bind fun _ _ => .ok _
  case entry =>
    intro index head trees values hlays hstorable hlevels hvalues
    cases hlays with
    | node hstores _ _ hslots =>
      rw [Eager.rawEntry, hstores.headOf hsmall hstorable.1, ok_bind]
      refine FailsWith.isShortRun_blaming ?_
      exact (h.children hsmall hvalid hstores hslots hstorable.2
        (Nat.le_of_succ_le_succ hlevels) hvalues).bind fun _ _ => .ok _

/-- **All that is laid out and has a value fails for a short run only**, as long as it may have
the levels that it has. -/
theorem failsShort (limit : Nat) : ∀ levels, FailsShort raw policy part limit levels
  | 0 => by
    constructor
    case expression =>
      intro index tree value hlays _ hlevels _
      cases hlays with
      | node => exact absurd hlevels (Nat.not_succ_le_zero _)
    case entry =>
      intro index head trees values _ _ hlevels _
      exact absurd hlevels (Nat.not_succ_le_zero _)
  | levels + 1 => (failsShort limit levels).succ hsmall hvalid

/-- **What becomes of a tree that is laid out** and has a value depends on the lengths of its
runs: if they are all read back, the tree is decoded to its value, and else it fails for a run
that is too short. -/
theorem Lays.decodes_or_isShortRun {index maxDepth : Nat} {tree : Tree} {value : Value}
    (h : Lays raw policy part index tree) (hstorable : tree.Storable)
    (hnesting : tree.nesting ≤ maxDepth) (hvalue : tree.promote = some value) :
    (tree.Legible policy → Eager.decodeExpression raw.regions maxDepth index = .ok value) ∧
      (¬ tree.Legible policy → ∃ e, Eager.decodeExpression raw.regions maxDepth index = .error e ∧
        e.IsShortRun) := by
  constructor
  · intro hlegible
    exact Eager.decodeExpression_eq_ok.mpr
      ⟨tree, h.unfolds hsmall hvalid hlegible hstorable, hnesting, hvalue⟩
  · intro hnot
    have hlevels : tree.levels ≤ maxDepth + 1 := by
      rw [Tree.nesting] at hnesting
      omega
    have hfails := (failsShort hsmall hvalid maxDepth (maxDepth + 1)).expression h hstorable
      hlevels hvalue
    cases hdecode : Eager.decodeExpression raw.regions maxDepth index with
    | ok found =>
      obtain ⟨other, hother, -⟩ := Eager.decodeExpression_eq_ok.mp hdecode
      exact absurd (h.eq_of_unfolds hsmall hvalid hstorable hother).2 hnot
    | error e => exact ⟨e, rfl, hfails e hdecode⟩

end Laid

end FlatTree
