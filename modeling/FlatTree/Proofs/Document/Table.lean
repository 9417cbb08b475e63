import Mathlib.Data.List.Forall2
import FlatTree.Document.Table
import FlatTree.Proofs.Package.Column

/-!
# The numbers of a column

The fields of a column that are not empty are all read as integers, or else all as
binary64 numbers, and the empty ones are skipped by every sum. So the sum over the
cells is one over the fields that are written, read in one way or in the other.

- `mapM_eq_some`: mapping succeeds item by item.
- `Table.written`: the fields of a column that are not empty.
- `Table.numbers?`: the numbers in them.
- `Table.ofScalars_cells`: the cells of the column add up to those.
-/

namespace FlatTree

/-! ## Lists that are mapped -/

/-- Mapping succeeds item by item. -/
theorem mapM_eq_some {α β : Type} {f : α → Option β} :
    ∀ {as : List α} {bs : List β},
      as.mapM f = some bs ↔ List.Forall₂ (fun a b => f a = some b) as bs
  | [], bs => by
    rw [List.mapM_nil]
    constructor
    · rintro ⟨⟩
      exact .nil
    · rintro ⟨⟩
      rfl
  | a :: as, bs => by
    rw [List.mapM_cons]
    constructor
    · intro h
      obtain ⟨b, hb, h⟩ := Option.bind_eq_some_iff.mp h
      obtain ⟨rest, hrest, h⟩ := Option.bind_eq_some_iff.mp h
      cases h
      exact .cons hb (mapM_eq_some.mp hrest)
    · intro h
      cases h with
      | cons hb hrest =>
        exact Option.bind_eq_some_iff.mpr
          ⟨_, hb, Option.bind_eq_some_iff.mpr ⟨_, mapM_eq_some.mpr hrest, rfl⟩⟩

/-- Mapping fails if an item does. -/
theorem exists_of_mapM_eq_none {α β : Type} {f : α → Option β} :
    ∀ {as : List α}, as.mapM f = none → ∃ a ∈ as, f a = none
  | [], h => by cases h
  | a :: as, h => by
    rw [List.mapM_cons] at h
    cases ha : f a with
    | none => exact ⟨a, List.mem_cons_self, ha⟩
    | some b =>
      rw [ha] at h
      cases hrest : as.mapM f with
      | none =>
        obtain ⟨a', hmem, ha'⟩ := exists_of_mapM_eq_none hrest
        exact ⟨a', List.mem_cons_of_mem _ hmem, ha'⟩
      | some bs =>
        rw [hrest] at h
        cases h

/-- Lists that are related have related items in each place. -/
theorem exists_getElem?_of_forall₂ {α β : Type} {R : α → β → Prop} :
    ∀ {as : List α} {bs : List β}, List.Forall₂ R as bs → ∀ {i : Nat} {a : α}, as[i]? = some a →
      ∃ b, bs[i]? = some b ∧ R a b
  | _, _, .cons h _, 0, _, rfl => ⟨_, rfl, h⟩
  | _, _, .cons _ h, _ + 1, _, ha => exists_getElem?_of_forall₂ h ha

/-! ## Columns -/

namespace Table

/-- The fields that are not empty. -/
def written (fields : List (List Char)) : List (List Char) :=
  fields.filter fun field => !field.isEmpty

/-- The numbers in fields, if all that are not empty have one. An integer counts as
its word does, so that a negative one counts as its complement to 2^64. -/
def numbers? (fields : List (List Char)) : Option (List Float) :=
  match (written fields).mapM Reading.integer? with
  | some integers => some (integers.map fun n => (UInt64.ofInt n).toFloat)
  | none => ((written fields).mapM Reading.double?).map (List.map Float.ofBits)

/-- The scalars of one type among cells. -/
def scalarsOf (type : SlotType) (cells : List Cell) : List Scalar :=
  cells.filterMap fun cell => Value.scalarOf? type (.scalar cell.scalar)

variable {α : Type} {parse : List Char → Option α} {cell : α → Cell}

/-- Where all written fields are read, the cells of a column are those of the fields
and symbols; and they are read together or not at all. -/
theorem rel_mapM_cell? :
    ∀ fields : List (List Char),
      Option.Rel (fun cells found => ∀ type ≠ .symbol,
          scalarsOf type cells = scalarsOf type (found.map cell))
        (fields.mapM (cell? fun field => (parse field).map cell))
        ((written fields).mapM parse)
  | [] => .some fun _ _ => rfl
  | field :: rest => by
    have ih := rel_mapM_cell? rest
    rw [List.mapM_cons, cell?]
    generalize rest.mapM (cell? fun field => (parse field).map cell) = cells? at ih
    cases hempty : field.isEmpty with
    | true =>
      have hwritten : written (field :: rest) = written rest :=
        List.filter_cons_of_neg (by rw [hempty]; decide)
      rw [hwritten]
      generalize (written rest).mapM parse = found? at ih
      cases ih with
      | none => exact .none
      | some hcells =>
        -- An empty field is a symbol in front of the other cells.
        refine .some fun type htype => ?_
        have hmissing : Value.scalarOf? type (.scalar Cell.missing.scalar) = none :=
          if_neg (Ne.symm htype)
        rw [scalarsOf, List.filterMap_cons, hmissing]
        exact hcells type htype
    | false =>
      have hwritten : written (field :: rest) = field :: written rest :=
        List.filter_cons_of_pos (by rw [hempty]; decide)
      rw [hwritten, List.mapM_cons]
      generalize (written rest).mapM parse = found? at ih
      cases parse field with
      | none => exact .none
      | some value =>
        cases ih with
        | none => exact .none
        | some hcells =>
          refine .some fun type htype => ?_
          have hsame : List.filterMap _ _ = List.filterMap _ _ := hcells type htype
          rw [List.map_cons, scalarsOf, scalarsOf, List.filterMap_cons, List.filterMap_cons, hsame]

/-- Cells that are made of one scalar type have all their scalars in it. -/
theorem scalarsOf_map {type : SlotType} {scalar : α → Scalar} (found : List α)
    (hscalar : ∀ a, (cell a).scalar = scalar a) (htype : ∀ a, (scalar a).type = type) :
    scalarsOf type (found.map cell) = found.map scalar ∧
      ∀ other ≠ type, scalarsOf other (found.map cell) = [] := by
  constructor
  · rw [scalarsOf, List.filterMap_map, ← List.filterMap_eq_map]
    congr 1
    funext a
    show (if (cell a).scalar.type = type then some (cell a).scalar else none) = some (scalar a)
    rw [hscalar, if_pos (htype a)]
  · intro other hother
    rw [scalarsOf, List.filterMap_map, List.filterMap_eq_nil_iff]
    intro a _
    refine if_neg fun heq => hother ?_
    rw [← heq, hscalar, htype]

/-- **The cells of a column add up to the numbers in its fields.** -/
theorem ofScalars_cells {fields : List (List Char)} {numbers : List Float}
    (h : numbers? fields = some numbers) :
    Aggregate.ofScalars (scalarsOf .double (cells fields) ++ scalarsOf .long (cells fields)) =
      Aggregate.empty.addAll numbers := by
  have hlongs := @rel_mapM_cell? _ Reading.integer? (fun n => .long (UInt64.ofInt n)) fields
  change Option.Rel _ (fields.mapM (cell? longCell?)) _ at hlongs
  rw [numbers?] at h
  rw [cells]
  generalize (written fields).mapM Reading.integer? = integers? at hlongs h
  generalize fields.mapM (cell? longCell?) = longs? at hlongs
  cases hlongs with
  | @some longs integers hsame =>
    cases h
    obtain ⟨hall, hnone⟩ := @scalarsOf_map _ (fun n => .long (UInt64.ofInt n)) .long
      (fun n => .long (UInt64.ofInt n)) integers (fun _ => rfl) fun _ => rfl
    show Aggregate.ofScalars (scalarsOf .double longs ++ scalarsOf .long longs) = _
    rw [hsame .double (by decide), hsame .long (by decide), hnone .double (by decide), hall,
      List.nil_append, Aggregate.ofScalars, List.filterMap_map, ← List.filterMap_eq_map]
    rfl
  | none =>
    have hdoubles := @rel_mapM_cell? _ Reading.double? .double fields
    change Option.Rel _ (fields.mapM (cell? doubleCell?)) _ at hdoubles
    obtain ⟨found, hfound, rfl⟩ := Option.map_eq_some_iff.mp h
    rw [hfound] at hdoubles
    obtain ⟨doubles, hcells, hsame⟩ := exists_of_rel_some_right hdoubles
    obtain ⟨hall, hnone⟩ := @scalarsOf_map _ .double .double .double found (fun _ => rfl)
      fun _ => rfl
    rw [hcells]
    show Aggregate.ofScalars (scalarsOf .double doubles ++ scalarsOf .long doubles) = _
    rw [hsame .double (by decide), hsame .long (by decide), hnone .long (by decide), hall,
      List.append_nil, Aggregate.ofScalars, List.filterMap_map, ← List.filterMap_eq_map]
    rfl

/-- There are as many numbers as fields that are written. -/
theorem length_of_numbers? {fields : List (List Char)} {numbers : List Float}
    (h : numbers? fields = some numbers) : numbers.length = (written fields).length := by
  rw [numbers?] at h
  split at h
  · next integers hintegers =>
    cases h
    rw [List.length_map, ← (mapM_eq_some.mp hintegers).length_eq]
  · obtain ⟨found, hfound, rfl⟩ := Option.map_eq_some_iff.mp h
    rw [List.length_map, ← (mapM_eq_some.mp hfound).length_eq]

end Table

end FlatTree
