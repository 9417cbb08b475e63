import FlatTree.Proofs.View.Materialize
import FlatTree.Proofs.Decode.Walk

/-!
# Walks with their fault, by cursors

The list of places that a walk brings, and the fault that ends it, is also what a cursor
goes through, and the loop maps over what a cursor yields, if the expression takes
arguments.

- `Cursor.flatMap_offered`: what a cursor makes of a walk.
- `Cursor.error_of_mem_toList`, `Cursor.refers_of_mem_toList`: what it fails for, and the
  expressions that it yields.
- `Cursor.toList_start_congr`: and what, therefore, it does not depend on.
- `Frame.drain_eq_mapM`: what the loop makes of what a cursor yields.
-/

namespace FlatTree

/-- Whether a place has a wanted type. A fault is met whatever is wanted. -/
def isWanted (wanted : Option SlotType) : Except Fault (SlotType × Nat) → Bool
  | .error _ => true
  | .ok place => wanted.all (· == place.1)

variable {r : Regions}

namespace Cursor

/-- What a cursor makes of a place, or of the fault after the last one. -/
def walkItem (r : Regions) (parent : Nat) (place : Except Fault (SlotType × Nat)) : Decoded Slot :=
  Decoded.blaming parent (Decoded.lift (place >>= fun place => decode r place.1 place.2))

theorem offered_eq {parent : Nat} {wanted : Option SlotType} (item : Except Fault Block) :
    offered r parent wanted item =
      ((itemPlaces item).filter (isWanted wanted)).map (walkItem r parent) := by
  cases item with
  | error fault => rfl
  | ok block =>
    have htype : ∀ place ∈ itemPlaces (.ok block), isWanted wanted place =
        wanted.all (· == block.type) := by
      intro place hplace
      obtain ⟨_, hmem, rfl⟩ := List.mem_map.mp hplace
      obtain ⟨_, -, rfl⟩ := List.mem_map.mp hmem
      rfl
    rw [offered, List.filter_congr htype]
    by_cases hwanted : wanted.all (· == block.type)
    · rw [if_pos hwanted, hwanted, List.filter_true, itemPlaces, Block.places, List.map_map,
        List.map_map]
      rfl
    · rw [if_neg hwanted, Bool.eq_false_iff.mpr hwanted, List.filter_false]
      rfl

/-- A walk brings a cursor its places of a wanted type, and its fault. -/
theorem flatMap_offered {parent : Nat} {wanted : Option SlotType}
    (items : List (Except Fault Block)) :
    items.flatMap (offered r parent wanted) =
      ((walkPlaces items).filter (isWanted wanted)).map (walkItem r parent) := by
  rw [walkPlaces, List.filter_flatMap, List.map_flatMap]
  exact List.flatMap_congr fun item _ => offered_eq item

theorem filter_isWanted_none (places : List (Except Fault (SlotType × Nat))) :
    places.filter (isWanted none) = places :=
  List.filter_eq_self.mpr fun place _ => by cases place <;> rfl

/-- What a fresh cursor yields is what it makes of a place of the walk, if the child range is
valid, and otherwise the fault of that. -/
theorem mem_toList_start {index : Nat} {wanted : Option SlotType} {item : Decoded Slot}
    (h : item ∈ (start r index wanted).toList r) :
    (∃ fault, item = .error ⟨.fault fault, some index⟩) ∨
      ∃ range place, r.children index = .ok range ∧
        place ∈ walkPlaces ((Blocks.ofRange range).toList r) ∧ walkItem r index place = item := by
  cases hrange : r.children index with
  | error fault =>
    rw [toList_start_error hrange, List.mem_singleton] at h
    exact .inl ⟨fault, h⟩
  | ok range =>
    rw [toList_start hrange, flatMap_offered] at h
    obtain ⟨place, hplace, hitem⟩ := List.mem_map.mp (mem_of_mem_untilError h)
    exact .inr ⟨range, place, rfl, (List.mem_filter.mp hplace).1, hitem⟩

/-- Whatever a fresh cursor fails for is a fault of the expression that it goes through, which is
blamed for it. -/
theorem error_of_mem_toList {index : Nat} {wanted : Option SlotType} {e : DecodeError}
    (h : .error e ∈ (start r index wanted).toList r) :
    ∃ fault, e = ⟨.fault fault, some index⟩ := by
  rcases mem_toList_start h with ⟨fault, heq⟩ | ⟨range, place, -, -, hitem⟩
  · cases heq
    exact ⟨fault, rfl⟩
  · obtain ⟨inner, hinner, rfl⟩ := Decoded.blaming_eq_error.mp hitem
    obtain ⟨fault, -, rfl⟩ := Decoded.lift_eq_error.mp hinner
    exact ⟨fault, rfl⟩

/-- An expression that a fresh cursor yields is one that the expression refers to, and exists. -/
theorem refers_of_mem_toList {index child : Nat} {wanted : Option SlotType}
    (h : .ok (.expression child) ∈ (start r index wanted).toList r) :
    r.Refers index child ∧ child < r.exprCount := by
  rcases mem_toList_start h with ⟨fault, heq⟩ | ⟨range, place, hrange, hplace, hitem⟩
  · cases heq
  · have hdecode := Decoded.lift_eq_ok.mp (Decoded.blaming_eq_ok.mp hitem)
    obtain ⟨⟨type, slot⟩, rfl, hdecode⟩ := bind_eq_ok.mp hdecode
    obtain ⟨hread, hexists⟩ := decode_eq_ok.mp hdecode
    have htype : type = .expression := (Slot.type_of_read hread).symm
    subst htype
    obtain ⟨word, hword, heq⟩ := Slot.read_expression.mp hread
    cases heq
    exact ⟨.of_mem_walkPlaces hrange hplace hword,
      Regions.exists_record_iff.mp (hexists _ rfl)⟩

/-- What a fresh cursor yields depends on the records, on the walk over its expression,
and on what is read in the places of a wanted type. -/
theorem toList_start_congr {s : Regions} {index : Nat} {wanted : Option SlotType}
    (hexpression : ∀ child, s.expression child = r.expression child)
    (hchildren : s.children index = r.children index)
    (hwalk : ∀ range, r.children index = .ok range →
      walkPlaces ((Blocks.ofRange range).toList s) = walkPlaces ((Blocks.ofRange range).toList r))
    (hreads : ∀ range place, r.children index = .ok range →
      .ok place ∈ walkPlaces ((Blocks.ofRange range).toList r) → isWanted wanted (.ok place) →
        Slot.read s place.1 place.2 = Slot.read r place.1 place.2) :
    (start s index wanted).toList s = (start r index wanted).toList r := by
  cases hrange : r.children index with
  | error fault =>
    rw [toList_start_error hrange, toList_start_error (hchildren.trans hrange)]
  | ok range =>
    rw [toList_start hrange, toList_start (hchildren.trans hrange), flatMap_offered,
      flatMap_offered, hwalk range hrange]
    refine congrArg untilError (List.map_congr_left fun place hplace => ?_)
    cases place with
    | error fault => rfl
    | ok place =>
      obtain ⟨hmem, hwanted⟩ := List.mem_filter.mp hplace
      have hread := hreads range place hrange hmem hwanted
      refine congrArg (fun read => Decoded.blaming index (Decoded.lift read)) ?_
      rw [ok_bind, ok_bind, decode, decode, hread]
      simp only [hexpression]

end Cursor

/-! ## What the loop makes of arguments -/

namespace Frame

variable {finish : Nat → Bool → Decoded Partial}

/-- What is found after an error is not looked at. -/
theorem drain_untilError :
    ∀ (f : Frame) (items : List (Decoded Slot)),
      drain finish f (untilError items) = drain finish f items
  | _, [] => rfl
  | f, .error e :: rest => rfl
  | f, .ok s :: rest => by
    rw [untilError_ok_cons, drain, drain]
    congr 1
    funext node
    exact drain_untilError { f with node } rest

/-- The value of an expression among the arguments. -/
def argument (finish : Nat → Bool → Decoded Partial) (child : Nat) : Decoded Value :=
  do return (← finish child false).toValue

theorem consume_of_arguments {f : Frame} (h : f.node.takesEntries = false) (item : Decoded Slot) :
    consume finish f item = Decoded.blaming f.index item >>= fun s =>
      s.value (argument finish) >>= fun value => pure (f.node.push value) := by
  obtain ⟨index, depth, cursor, node⟩ := f
  match item with
  | .error e => rfl
  | .ok (.scalar value) =>
    cases node with
    | object => cases h
    | table => cases h
    | _ => rfl
  | .ok (.expression child) =>
    show _ = argument finish child >>= fun value => pure (node.push value)
    rw [argument, bind_assoc]
    cases node with
    | object => cases h
    | table => cases h
    | _ => rfl

/-- An expression whose children are arguments takes their values one by one, until
one fails. -/
theorem drain_eq_mapM :
    ∀ {f : Frame} (items : List (Decoded Slot)), f.node.takesEntries = false →
      drain finish f items =
        (items.mapM fun item => Decoded.blaming f.index item >>= Slot.value (argument finish)) >>=
          fun values => pure (values.foldl Partial.push f.node)
  | f, [], _ => rfl
  | f, item :: rest, h => by
    have ih := fun value => drain_eq_mapM (f := { f with node := f.node.push value }) rest
      ((Partial.takesEntries_push _ _).trans h)
    rw [drain, List.mapM_cons, consume_of_arguments h]
    simp only [bind_assoc, pure_bind, ih, List.foldl_cons]

end Frame

end FlatTree
