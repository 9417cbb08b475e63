import FlatTree.Proofs.Buffer.Layout
import FlatTree.Proofs.Buffer.Places
import FlatTree.Proofs.Decode.Agreement
import FlatTree.Proofs.Decode.Eager

/-!
# Layouts that decode alike

The same data can be laid out in many ways: expressions may be numbered in any
order, slots and texts may stand anywhere, expressions may be shared or copied,
and tags may be written in runs or not. A decoder sees none of that. It is led by
references alone, so two buffers decode alike as soon as their references lead
through expressions that look alike, step by step.

- `Slot.Agree`: the same scalar, or references to related expressions.
- `Regions.Alike`: expressions that look alike, faults included.
- `Eager.agreesAt`: whatever a relation of alike expressions relates decodes alike.
  References may be cyclic, so the induction is on the levels left and not on what
  is below an expression.
- `Eager.decodeExpression_agree`: the same for expressions without a fault.
-/

namespace FlatTree

variable {r s : Regions} {R : Nat → Nat → Prop}

/-- Slots agree if they hold the same scalar, or refer to related expressions. -/
inductive Slot.Agree (R : Nat → Nat → Prop) : Slot → Slot → Prop where
  | scalar {value : Scalar} : Agree R (.scalar value) (.scalar value)
  | expression {i j : Nat} : R i j → Agree R (.expression i) (.expression j)

namespace Regions

/-- Places of two buffers agree if they have one type, and if the slots that are
read there agree, or the same fault is met in both. -/
structure PlacesAgree (r s : Regions) (R : Nat → Nat → Prop) (p q : SlotType × Nat) : Prop where
  type : p.1 = q.1
  read : Decoded.Agree R (Slot.Agree R) (Decoded.lift (Slot.read r p.1 p.2))
    (Decoded.lift (Slot.read s q.1 q.2))

/-- Walks over two ranges expand to places that agree one by one. -/
def RangesAgree (r s : Regions) (R : Nat → Nat → Prop) (range range' : SlotRange) : Prop :=
  ∃ places places', r.Expands range places ∧ s.Expands range' places' ∧
    List.Forall₂ (PlacesAgree r s R) places places'

/-- Expressions of two buffers look alike: in both the head is the same and the
slots of the children agree, or the same fault is met. -/
structure Alike (r s : Regions) (R : Nat → Nat → Prop) (i j : Nat) : Prop where
  head : Decoded.Agree R Eq (headOf r i) (headOf s j)
  children : Decoded.Agree R (RangesAgree r s R) (Decoded.lift (r.children i))
    (Decoded.lift (s.children j))

/-- Two readable expressions are the same node: they have the same head, and their
slots agree one by one. -/
def SameNode (r s : Regions) (R : Nat → Nat → Prop) (i j : Nat) : Prop :=
  ∃ head held held', headOf r i = .ok head ∧ headOf s j = .ok head ∧
    r.childSlots i = .ok held ∧ s.childSlots j = .ok held' ∧
    List.Forall₂ (Slot.Agree R) held held'

/-- What is read of slots that agree agrees place by place. -/
theorem placesAgree_of_held {held held' : List Slot}
    (h : List.Forall₂ (Slot.Agree R) held held') :
    ∀ {places places' : List (SlotType × Nat)},
      List.Forall₂ (fun place s => Slot.read r place.1 place.2 = .ok s) places held →
      List.Forall₂ (fun place t => Slot.read s place.1 place.2 = .ok t) places' held' →
        List.Forall₂ (PlacesAgree r s R) places places' := by
  induction h with
  | nil =>
    intro _ _ hread hread'
    cases hread
    cases hread'
    exact .nil
  | @cons first first' _ _ hfirst _ ih =>
    intro _ _ hread hread'
    cases hread with
    | cons hslot hread =>
      cases hread' with
      | cons hslot' hread' =>
        refine .cons ⟨?_, ?_⟩ (ih hread hread')
        · -- A slot shows the type that it was read under.
          rw [← Slot.type_of_read hslot, ← Slot.type_of_read hslot']
          cases hfirst <;> rfl
        · rw [hslot, hslot']
          exact .ok hfirst

/-- Expressions that are the same node look alike. -/
theorem SameNode.alike {i j : Nat} (h : r.SameNode s R i j) : r.Alike s R i j := by
  obtain ⟨head, held, held', hhead, hhead', hheld, hheld', hslots⟩ := h
  obtain ⟨range, places, hrange, hplaces, hread⟩ := exists_expands_of_childSlots hheld
  obtain ⟨range', places', hrange', hplaces', hread'⟩ := exists_expands_of_childSlots hheld'
  constructor
  · rw [hhead, hhead']
    exact .ok rfl
  · rw [hrange, hrange']
    exact .ok ⟨places, places', hplaces, hplaces', placesAgree_of_held hslots hread hread'⟩

end Regions

namespace Eager

/-! ## Children place by place -/

/-- The value of what is read in a place. -/
def placeValue (r : Regions) (child : Nat → Decoded Value) (place : SlotType × Nat) :
    Decoded Value :=
  Decoded.lift (Slot.read r place.1 place.2) >>= Slot.value child

/-- The entry that a place refers to. -/
def placeEntry (r : Regions) (shape : Shape) (index : Nat) (place : SlotType × Nat) :
    Decoded Nat :=
  if place.1 = .expression then do return (← Decoded.lift (r.argWord place.2)).toNat
  else .error (.ofCause (.malformedShape shape index .notAnExpression))

theorem slots_eq_mapM (child : Nat → Decoded Value) (type : SlotType) :
    ∀ slots : List Nat, Eager.slots r child type slots =
      (slots.map fun slot => (type, slot)).mapM (placeValue r child)
  | [] => rfl
  | slot :: rest => by
    rw [slots, List.map_cons, List.mapM_cons, slots_eq_mapM child type rest, placeValue, bind_assoc]
    congr 1
    funext held
    cases held <;> rfl

/-- Without a fault in the walk, blocks are decoded place by place. -/
theorem blocks_map_ok (child : Nat → Decoded Value) (walk : List Block) :
    Eager.blocks r child (walk.map .ok) =
      (walk.flatMap Block.places).mapM (placeValue r child) := by
  induction walk with
  | nil => rfl
  | cons block rest ih =>
    rw [List.flatMap_cons, List.mapM_append, ← ih, Block.places, ← slots_eq_mapM]
    rfl

/-- The words of slots are the entries that their places refer to. -/
theorem mapM_placeEntry {shape : Shape} {index : Nat} (slots : List Nat) :
    (slots.map fun slot => (SlotType.expression, slot)).mapM (placeEntry r shape index) =
      (slots.mapM fun slot => Decoded.lift (r.argWord slot)) >>= fun words =>
        pure (words.map UInt64.toNat) := by
  induction slots with
  | nil => rfl
  | cons slot rest ih =>
    rw [List.map_cons, List.mapM_cons, List.mapM_cons, ih, placeEntry, if_pos rfl]
    cases Decoded.lift (r.argWord slot) with
    | error e => rfl
    | ok word =>
      cases rest.mapM fun slot => Decoded.lift (r.argWord slot) <;> rfl

/-- Without a fault in the walk, entries are found place by place. No block is
empty, so one of another type is missed by neither. -/
theorem entryIndices_map_ok {shape : Shape} {index : Nat} :
    ∀ {walk : List Block}, (∀ block ∈ walk, block.slots.start < block.slots.stop) →
      Eager.entryIndices r shape index (walk.map .ok) =
        (walk.flatMap Block.places).mapM (placeEntry r shape index)
  | [], _ => rfl
  | block :: rest, h => by
    obtain ⟨hblock, hrest⟩ := List.forall_mem_cons.mp h
    have ih : Eager.entryIndices r shape index (rest.map .ok) = _ := entryIndices_map_ok hrest
    rw [List.map_cons, List.flatMap_cons, List.mapM_append, ← ih]
    by_cases htype : block.type = .expression
    · rw [entryIndices_cons htype, Block.places, htype, mapM_placeEntry, bind_assoc]
      rfl
    · obtain ⟨others, hothers⟩ := block.exists_places_eq_cons hblock
      rw [entryIndices_cons_ne htype, hothers, List.mapM_cons, placeEntry, if_neg htype]
      rfl

/-! ## Alike expressions -/

section Agree

variable {i j : Nat}

/-- Values of slots that agree agree, if they do for related expressions. -/
theorem value_agree {child child' : Nat → Decoded Value}
    (hchild : ∀ {i j}, R i j → Decoded.Agree R Eq (child i) (child' j)) {a b : Slot}
    (h : a.Agree R b) : Decoded.Agree R Eq (a.value child) (b.value child') := by
  cases h with
  | scalar => exact .ok rfl
  | expression hij => exact hchild hij

/-- Children of alike expressions are decoded alike. -/
theorem children_agree {child child' : Nat → Decoded Value}
    (hchild : ∀ {i j}, R i j → Decoded.Agree R Eq (child i) (child' j)) (h : r.Alike s R i j) :
    Decoded.Agree R Eq (children r child i) (children s child' j) := by
  refine h.children.bind ?_
  rintro range range' ⟨_, _, ⟨walk, hwalk, rfl⟩, ⟨walk', hwalk', rfl⟩, hplaces⟩
  rw [hwalk, hwalk', blocks_map_ok, blocks_map_ok]
  have hvalues := Decoded.Agree.mapM (f := placeValue r child) (g := placeValue s child') hplaces
    fun hplace => hplace.read.bind (value_agree hchild)
  refine hvalues.mono fun hall => ?_
  rwa [List.forall₂_eq_eq_eq] at hall

/-- Places that agree refer to related entries, or are no entries in the same way. -/
theorem placeEntry_agree {shape : Shape} (hij : R i j) {p q : SlotType × Nat}
    (h : r.PlacesAgree s R p q) :
    Decoded.Agree R R (placeEntry r shape i p) (placeEntry s shape j q) := by
  obtain ⟨type, slot⟩ := p
  obtain ⟨type', slot'⟩ := q
  obtain ⟨rfl, hread⟩ := h
  by_cases htype : type = .expression
  · subst htype
    rw [placeEntry, placeEntry, if_pos rfl, if_pos rfl]
    -- A slot of expression type is read as its word, whatever that is.
    have hslot : ∀ (t : Regions) (place : Nat), Decoded.lift (Slot.read t .expression place) =
        Decoded.lift (t.argWord place) >>= fun word => pure (.expression word.toNat) := by
      intro t place
      rw [Slot.read]
      cases t.argWord place <;> rfl
    rw [hslot, hslot] at hread
    refine hread.of_bind_pure.bind fun hwords => ?_
    cases hwords with
    | expression hreferred => exact .ok hreferred
  · rw [placeEntry, placeEntry, if_neg htype, if_neg htype]
    exact .error (.ofCause (.malformedShape hij))

/-- Alike expressions have related entries, or fail to have any in the same way. -/
theorem entries_agree {shape : Shape} (hij : R i j) (h : r.Alike s R i j) :
    Decoded.Agree R (List.Forall₂ R) (entries r shape i) (entries s shape j) := by
  refine h.children.bind ?_
  rintro range range' ⟨_, _, ⟨walk, hwalk, rfl⟩, ⟨walk', hwalk', rfl⟩, hplaces⟩
  have hsize : ∀ {t : Regions} {range : SlotRange} {walk : List Block},
      (Blocks.ofRange range).toList t = walk.map .ok →
        ∀ block ∈ walk, block.slots.start < block.slots.stop := by
    intro t range walk hwalk block hblock
    exact Blocks.start_lt_stop_of_mem (hwalk ▸ List.mem_map_of_mem hblock)
  rw [hwalk, hwalk', entryIndices_map_ok (hsize hwalk), entryIndices_map_ok (hsize hwalk')]
  exact Decoded.Agree.mapM hplaces (placeEntry_agree hij)

/-- Maps are collected alike from related entries that are decoded alike. -/
theorem collect_agree {entry entry' : Nat → Decoded (String × Value)}
    (hentry : ∀ {i j}, R i j → Decoded.Agree R Eq (entry i) (entry' j)) :
    ∀ {indices indices' : List Nat} {map : Entries Value}, List.Forall₂ R indices indices' →
      Decoded.Agree R Eq (collect entry indices map) (collect entry' indices' map)
  | _, _, _, .nil => .ok rfl
  | _, _, _, .cons hij hrest => by
    refine (hentry hij).bind ?_
    rintro ⟨key, value⟩ _ rfl
    exact collect_agree hentry hrest

/-- An entry of an object breaks the rule on both sides or on neither. -/
theorem objectEntry_agree (hij : R i j) (arguments : List Value) :
    Decoded.Agree R Eq (objectEntry i arguments) (objectEntry j arguments) := by
  rw [objectEntry.eq_def, objectEntry.eq_def]
  split
  · exact .ok rfl
  · exact .error (.ofCause (.malformedShape hij))

/-- With so many levels left, related expressions decode alike, promoted and as
entries. -/
structure AgreesAt (r s : Regions) (R : Nat → Nat → Prop) (limit levels : Nat) : Prop where
  expression : ∀ {i j}, R i j →
    Decoded.Agree R Eq (Eager.expression r limit levels i) (Eager.expression s limit levels j)
  entry : ∀ {i j}, R i j →
    Decoded.Agree R Eq (rawEntry r limit levels i) (rawEntry s limit levels j)

variable {limit levels : Nat}

theorem AgreesAt.rawEntry_succ (h : AgreesAt r s R limit levels) (hij : R i j)
    (halike : r.Alike s R i j) :
    Decoded.Agree R Eq (rawEntry r limit (levels + 1) i) (rawEntry s limit (levels + 1) j) := by
  rw [rawEntry, rawEntry]
  refine Decoded.Agree.blaming (halike.head.bind ?_) hij
  rintro head _ rfl
  refine (children_agree h.expression halike).bind ?_
  rintro arguments _ rfl
  exact .ok rfl

theorem AgreesAt.expression_succ (h : AgreesAt r s R limit levels) (hij : R i j)
    (halike : r.Alike s R i j) :
    Decoded.Agree R Eq (Eager.expression r limit (levels + 1) i)
      (Eager.expression s limit (levels + 1) j) := by
  rw [Eager.expression, Eager.expression]
  refine Decoded.Agree.blaming (halike.head.bind ?_) hij
  rintro head _ rfl
  cases Shape.ofHead head with
  | list =>
    refine (children_agree h.expression halike).bind ?_
    rintro items _ rfl
    exact .ok rfl
  | generic =>
    refine (children_agree h.expression halike).bind ?_
    rintro arguments _ rfl
    exact .ok rfl
  | object =>
    refine (entries_agree hij halike).bind fun hindices => ?_
    refine (collect_agree ?_ hindices).bind ?_
    · intro i j hij
      refine (h.entry hij).bind ?_
      rintro ⟨key, arguments⟩ _ rfl
      refine (objectEntry_agree hij arguments).bind ?_
      rintro value _ rfl
      exact .ok rfl
    · rintro map _ rfl
      exact .ok rfl
  | table =>
    refine (entries_agree hij halike).bind fun hindices => ?_
    refine (collect_agree ?_ hindices).bind ?_
    · intro i j hij
      refine (h.entry hij).bind ?_
      rintro ⟨head, arguments⟩ _ rfl
      exact .ok rfl
    · rintro map _ rfl
      exact .ok rfl

/-- **Alike expressions decode alike**, as deep as the levels left allow. At the
limit both sides blame the expression before anything of it is read. -/
theorem agreesAt (h : ∀ {i j}, R i j → r.Alike s R i j) (limit : Nat) :
    ∀ levels, AgreesAt r s R limit levels
  | 0 => by
    refine ⟨fun hij => ?_, fun hij => ?_⟩
    · rw [Eager.expression, Eager.expression]
      exact .error ⟨.same, .some hij⟩
    · rw [rawEntry, rawEntry]
      exact .error ⟨.same, .some hij⟩
  | levels + 1 =>
    have ih := agreesAt h limit levels
    ⟨fun hij => ih.expression_succ hij (h hij), fun hij => ih.rawEntry_succ hij (h hij)⟩

end Agree

/-- **Expressions that are the same node step by step decode alike**: both to one
value, or both fail for one cause, at related expressions. How expressions are
numbered, shared or copied, where slots and texts stand, and how tags are written
in runs has no part in it. -/
theorem decodeExpression_agree (h : ∀ i j, R i j → r.SameNode s R i j) {i j : Nat}
    (hij : R i j) (maxDepth : Nat) :
    Decoded.Agree R Eq (decodeExpression r maxDepth i) (decodeExpression s maxDepth j) :=
  (agreesAt (fun hij => (h _ _ hij).alike) maxDepth (maxDepth + 1)).expression hij

/-- Two lists that are one expression, and an expression that refers to itself. -/
def sharedLayout : RawBuffer where
  args := #[1, 1, 1, 7, 2, 3, 2]
  tags := #[5, 5, 0, 1, 1, 1, 5]
  exprs := #[⟨5, 0, 4⟩, ⟨0, 4, 6⟩, ⟨5, 6, 7⟩]
  strings := RawBuffer.textEntry "List" ++ RawBuffer.textEntry "f"

/-- The same with copies, numbered and stored in another order, with runs, and with
another word for what is true. -/
def copiedLayout : RawBuffer where
  args := #[0, 1, 0x302, 7, 2, 3, 2, 3, 4, 3]
  tags := #[0x85, 2, 0, 1, 0x81, 2, 1, 1, 5, 5]
  exprs := #[⟨2, 4, 6⟩, ⟨2, 6, 8⟩, ⟨0, 0, 4⟩, ⟨0, 8, 9⟩, ⟨0, 9, 10⟩]
  strings := RawBuffer.textEntry "f" ++ RawBuffer.textEntry "List"

/-- Which expressions of the two stand for the same. -/
def SameInCopy (i j : Nat) : Prop :=
  (i, j) ∈ [(0, 2), (1, 0), (1, 1), (2, 3), (2, 4)]

instance (i j : Nat) : Decidable (SameInCopy i j) :=
  inferInstanceAs (Decidable ((i, j) ∈ [(0, 2), (1, 0), (1, 1), (2, 3), (2, 4)]))

/-- The two decode alike, the cyclic parts as well. -/
theorem decodeExpression_agree_copiedLayout :
    (∀ i j, SameInCopy i j → sharedLayout.regions.SameNode copiedLayout.regions SameInCopy i j) ∧
      SameInCopy 0 2 ∧
      Decoded.Agree SameInCopy Eq (decodeExpression sharedLayout.regions defaultMaxDepth 0)
        (decodeExpression copiedLayout.regions defaultMaxDepth 2) := by
  have hsame : ∀ i j, SameInCopy i j →
      sharedLayout.regions.SameNode copiedLayout.regions SameInCopy i j := by
    intro i j hij
    have hlist : ∀ j ∈ [0, 1],
        sharedLayout.regions.SameNode copiedLayout.regions SameInCopy 1 j := by
      intro j hj
      refine ⟨"List", [.scalar (.long 2), .scalar (.long 3)],
        [.scalar (.long 2), .scalar (.long 3)], by decide +kernel, ?_, by decide +kernel, ?_,
        .cons .scalar (.cons .scalar .nil)⟩ <;> revert j <;> decide +kernel
    have hloop : ∀ j ∈ [3, 4],
        sharedLayout.regions.SameNode copiedLayout.regions SameInCopy 2 j := by
      intro j hj
      refine ⟨"f", [.expression 2], [.expression (7 - j)], by decide +kernel, ?_,
        by decide +kernel, ?_, .cons (.expression ?_) .nil⟩
      all_goals
        revert j
        decide +kernel
    simp only [SameInCopy, List.mem_cons, Prod.mk.injEq, List.not_mem_nil, or_false] at hij
    obtain ⟨rfl, rfl⟩ | ⟨rfl, rfl⟩ | ⟨rfl, rfl⟩ | ⟨rfl, rfl⟩ | ⟨rfl, rfl⟩ := hij
    · exact ⟨"f", [.expression 1, .expression 1, .scalar (.bool true), .scalar (.long 7)],
        [.expression 0, .expression 1, .scalar (.bool true), .scalar (.long 7)],
        by decide +kernel, by decide +kernel, by decide +kernel, by decide +kernel,
        .cons (.expression (by decide)) (.cons (.expression (by decide))
          (.cons .scalar (.cons .scalar .nil)))⟩
    · exact hlist 0 (by decide)
    · exact hlist 1 (by decide)
    · exact hloop 3 (by decide)
    · exact hloop 4 (by decide)
  exact ⟨hsame, by decide, decodeExpression_agree hsame (by decide) defaultMaxDepth⟩

end Eager

end FlatTree
