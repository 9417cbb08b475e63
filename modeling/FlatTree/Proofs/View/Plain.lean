import FlatTree.Proofs.View.Walk
import FlatTree.Proofs.Buffer.Layout

/-!
# Plain expressions fail alike

An object or a table is promoted, and there the two ways of decoding fail in different
places. Where neither is met, and no reference leads out of the table of expressions,
they look at the same things in the same order: the levels left, the head, the child
range, and then the slots one by one, each followed at once by the expression in it.
So they do not only return the same values there. They fail for the same cause and
blame the same expression, also where references are cyclic.

- `Regions.Plain`: no object or table is reached, and no reference leads out.
- `Frame.finish_eq_expression`: with any levels left, both ways of decoding have one
  outcome. The induction is on the levels, as it is in both.
- `View.materialize_eq_decodeExpression`: the same for a view.
-/

namespace FlatTree

namespace Regions

/-- From an expression no object and no table is reached, and no reference that is
reached leads out of the table of expressions. -/
structure Plain (r : Regions) (index : Nat) : Prop where
  promotes : ∀ {n target : Nat} {head : String}, r.Chain n index target →
    headOf r target = .ok head → head ≠ "Object" ∧ head ≠ "Table"
  refers : ∀ {n target next : Nat}, r.Chain n index target →
    r.Refers target next → next < r.exprCount

/-- Only what is in a set closed under references has to be looked at. -/
theorem Plain.of_closed {r : Regions} {index : Nat} {S : Nat → Prop} (hindex : S index)
    (hpromotes : ∀ {target head}, S target → headOf r target = .ok head →
      head ≠ "Object" ∧ head ≠ "Table")
    (hrefers : ∀ {target next}, S target → r.Refers target next →
      S next ∧ next < r.exprCount) : r.Plain index := by
  have hinside : ∀ {n i j}, r.Chain n i j → S i → S j := by
    intro n i j hchain
    induction hchain with
    | nil => exact id
    | cons hnext _ ih => exact fun hi => ih (hrefers hi hnext).1
  exact ⟨fun hchain hhead => hpromotes (hinside hchain hindex) hhead,
    fun hchain hnext => (hrefers (hinside hchain hindex) hnext).2⟩

/-- A plain expression refers to plain expressions only. -/
theorem Plain.next {r : Regions} {index next : Nat} (h : r.Plain index)
    (hnext : r.Refers index next) : r.Plain next where
  promotes hchain := h.promotes (.cons hnext hchain)
  refers hchain := h.refers (.cons hnext hchain)

end Regions

variable {r : Regions}

/-- A slot that may only refer to an expression that exists is decoded as it is read. -/
theorem Cursor.decode_eq_read {type : SlotType} {slot : Nat}
    (h : type = .expression → ∀ word, r.argWord slot = .ok word → word.toNat < r.exprCount) :
    decode r type slot = Slot.read r type slot := by
  rw [decode]
  cases hread : Slot.read r type slot with
  | error fault => rfl
  | ok s =>
    cases s with
    | scalar value => rfl
    | expression child =>
      have htype := Slot.type_of_read hread
      subst htype
      obtain ⟨word, hword, hchild⟩ := Slot.read_expression.mp hread
      cases hchild
      obtain ⟨record, hrecord⟩ := Regions.exists_record_iff.mpr (h rfl word hword)
      show (r.expression word.toNat >>= _) = _
      rw [hrecord]
      rfl

namespace Frame

/-- What finishing an expression is, step by step. -/
theorem finish_succ (levels index : Nat) (isEntry : Bool) :
    finish r (levels + 1) index isEntry =
      Decoded.blaming index (headOf r index) >>= fun head =>
        drain (finish r levels) ⟨index, defaultMaxDepth - levels, Cursor.start r index none,
          if isEntry then .entry head #[] else .ofHead head⟩
          ((Cursor.start r index none).toList r) := by
  have hdepth : ¬ defaultMaxDepth < defaultMaxDepth - levels := by omega
  rw [finish, start, if_neg hdepth]
  cases hhead : headOf r index with
  | error e => exact congrArg Except.error (e.blame_blame index index)
  | ok head => rfl

/-- A place of a plain expression becomes the same argument in both ways of decoding,
or the same failure. -/
theorem argument_of_place {finish : Nat → Bool → Decoded Partial} {child : Nat → Decoded Value}
    {index : Nat} (hblamed : ∀ next, Decoded.blaming index (child next) = child next)
    {place : Except Fault (SlotType × Nat)}
    (hplace : ∀ slot word, place = .ok (.expression, slot) → r.argWord slot = .ok word →
      word.toNat < r.exprCount ∧ argument finish word.toNat = child word.toNat) :
    (Decoded.blaming index (Cursor.walkItem r index place) >>= Slot.value (argument finish)) =
      Decoded.blaming index (Decoded.lift place >>= Eager.placeValue r child) := by
  rw [Cursor.walkItem, Decoded.blaming_blaming]
  rcases place with fault | ⟨type, slot⟩
  · rfl
  have hdecode : Cursor.decode r type slot = Slot.read r type slot := by
    refine Cursor.decode_eq_read ?_
    rintro rfl word hword
    exact (hplace slot word rfl hword).1
  show (Decoded.blaming index (Decoded.lift (Cursor.decode r type slot)) >>= _) =
    Decoded.blaming index (Eager.placeValue r child (type, slot))
  rw [hdecode, Eager.placeValue, Decoded.blaming_bind]
  cases hread : Slot.read r type slot with
  | error fault => rfl
  | ok s =>
    cases s with
    | scalar value => rfl
    | expression next =>
      have htype := Slot.type_of_read hread
      subst htype
      obtain ⟨word, hword, hnext⟩ := Slot.read_expression.mp hread
      cases hnext
      show argument finish word.toNat = Decoded.blaming index (child word.toNat)
      rw [hblamed, (hplace slot word rfl hword).2]

/-- So the arguments of a plain expression are the same, or the first failure is. -/
theorem drain_start {finish : Nat → Bool → Decoded Partial} {child : Nat → Decoded Value}
    {index depth : Nat} {cursor : Cursor} {node : Partial} (hnode : node.takesEntries = false)
    (hblamed : ∀ next, Decoded.blaming index (child next) = child next)
    (hnext : ∀ next, r.Refers index next →
      next < r.exprCount ∧ argument finish next = child next) :
    drain finish ⟨index, depth, cursor, node⟩ ((Cursor.start r index none).toList r) =
      Decoded.blaming index (Eager.children r child index) >>= fun values =>
        pure (values.foldl Partial.push node) := by
  rw [Eager.children]
  cases hrange : r.children index with
  | error fault =>
    rw [Cursor.toList_start_error hrange]
    exact congrArg Except.error (DecodeError.blame_blame index index _)
  | ok range =>
    -- Both sides go through the places of the walk, up to the first failure.
    rw [Cursor.toList_start hrange, drain_untilError, Cursor.flatMap_offered,
      Cursor.filter_isWanted_none, drain_eq_mapM _ hnode, List.mapM_map]
    show _ = Decoded.blaming index (Eager.blocks r child _) >>= _
    rw [Eager.blocks_eq_mapM, Decoded.blaming_mapM]
    congr 1
    refine mapM_congr_mem fun place hplace => argument_of_place hblamed ?_
    rintro slot word rfl hword
    exact hnext _ (.of_mem_walkPlaces hrange hplace hword)

/-- So the value that is made of them is the same. -/
theorem toValue_drain_start {finish : Nat → Bool → Decoded Partial} {child : Nat → Decoded Value}
    {index depth : Nat} {cursor : Cursor} {wrap : Array Value → Partial}
    (hwrap : ∀ arguments, (wrap arguments).takesEntries = false)
    (hpush : ∀ (arguments : Array Value) (value : Value),
      (wrap arguments).push value = wrap (arguments.push value))
    (hblamed : ∀ next, Decoded.blaming index (child next) = child next)
    (hnext : ∀ next, r.Refers index next →
      next < r.exprCount ∧ argument finish next = child next) :
    (drain finish ⟨index, depth, cursor, wrap #[]⟩ ((Cursor.start r index none).toList r) >>=
        fun node => pure node.toValue) =
      Decoded.blaming index
        (Eager.children r child index >>= fun values => pure (wrap values.toArray).toValue) := by
  rw [drain_start (hwrap #[]) hblamed hnext, bind_assoc, Decoded.blaming_bind]
  congr 1
  funext values
  rw [Partial.foldl_push hpush, Array.empty_append]
  rfl

/-- **Plain expressions fail alike**: with any levels left, the loop and the eager
decoder have the same outcome. -/
theorem finish_eq_expression (levels index : Nat) (h : r.Plain index) :
    argument (finish r levels) index = Eager.expression r defaultMaxDepth levels index := by
  induction levels generalizing index with
  | zero => rfl
  | succ levels ih =>
    have hblamed := Eager.blaming_expression (r := r) index defaultMaxDepth levels
    have hnext : ∀ next, r.Refers index next → next < r.exprCount ∧
        argument (finish r levels) next = Eager.expression r defaultMaxDepth levels next :=
      fun next hnext => ⟨h.refers .nil hnext, ih next (h.next hnext)⟩
    rw [argument, finish_succ, Eager.expression, Decoded.blaming_bind]
    cases hhead : headOf r index with
    | error e => rfl
    | ok head =>
      obtain ⟨hobject, htable⟩ := h.promotes .nil hhead
      -- Both sides decode the arguments now; what they make of them is up to the head.
      by_cases hlist : head = "List"
      · have hshape : Shape.ofHead head = .list := by rw [hlist]; rfl
        simp only [Decoded.blaming, ok_bind, Partial.ofHead, hshape]
        exact toValue_drain_start (fun _ => rfl) (fun _ _ => rfl) hblamed hnext
      · have hshape : Shape.ofHead head = .generic := by
          rw [Shape.ofHead, if_neg hobject, if_neg hlist, if_neg htable]
        simp only [Decoded.blaming, ok_bind, Partial.ofHead, hshape]
        exact toValue_drain_start (fun _ => rfl) (fun _ _ => rfl) hblamed hnext

end Frame

namespace View

/-- Of an expression from which no object and no table is reached, and no reference that
leads out of the table of expressions, both ways of decoding have the same outcome: the
same value, or the same cause with the same expression blamed for it. -/
theorem materialize_eq_decodeExpression (r : Regions) (index : Nat) (hindex : index < r.exprCount)
    (h : r.Plain index) :
    (ofIndex r index >>= materialize) = Eager.decodeExpression r defaultMaxDepth index := by
  obtain ⟨record, hrecord⟩ := Regions.exists_record_iff.mpr hindex
  have hview : ofIndex r index = .ok ⟨r, index⟩ := by rw [ofIndex, hrecord]; rfl
  rw [hview, ok_bind, materialize_eq]
  exact Frame.finish_eq_expression (defaultMaxDepth + 1) index h

/-- A list that ends in an expression that refers to itself. -/
def loopLayout : RawBuffer where
  args := #[7, 1, 1]
  tags := #[1, 5, 5]
  exprs := #[⟨0, 0, 2⟩, ⟨5, 2, 3⟩]
  strings := RawBuffer.textEntry "List" ++ RawBuffer.textEntry "f"

/-- The loop is entered as deep as the limit allows, and is blamed for it. -/
theorem materialize_eq_decodeExpression_loopLayout :
    0 < loopLayout.regions.exprCount ∧ loopLayout.regions.Plain 0 ∧
      (ofIndex loopLayout.regions 0 >>= materialize) =
        Eager.decodeExpression loopLayout.regions defaultMaxDepth 0 := by
  have hhead : ∀ index < 2, headOf loopLayout.regions index ≠ .ok "Object" ∧
      headOf loopLayout.regions index ≠ .ok "Table" := by decide +kernel
  have hslots : loopLayout.regions.childSlots 0 = .ok [.scalar (.long 7), .expression 1] ∧
      loopLayout.regions.childSlots 1 = .ok [.expression 1] := by decide +kernel
  have hcount : loopLayout.regions.exprCount = 2 := RawBuffer.exprCount_regions
  have hplain : loopLayout.regions.Plain 0 := by
    refine .of_closed (S := (· < 2)) (by decide) ?_ ?_
    · rintro target head htarget htext
      obtain ⟨hobject, htable⟩ := hhead target htarget
      exact ⟨fun h => hobject (h ▸ htext), fun h => htable (h ▸ htext)⟩
    · rintro target next htarget hnext
      have hnext : next = 1 := by
        obtain rfl | rfl : target = 0 ∨ target = 1 := by omega
        · simpa using (Regions.refers_iff_mem hslots.1).mp hnext
        · simpa using (Regions.refers_iff_mem hslots.2).mp hnext
      omega
  exact ⟨by omega, hplain, materialize_eq_decodeExpression _ 0 (by omega) hplain⟩

end View

end FlatTree
