import FlatTree.Proofs.View.Stack

/-!
# Blame on demand

A view is decoded on demand, and so it fails on demand: in its own record, in one of its
slots, in a child that a step looks at, or anywhere below it when it is materialized. An
expression is blamed in many places, and some errors pass through more than one of them. What
comes out is annotated once, with an expression that exists and that references lead to.

- `DecodeError.Layers`: annotations as they might nest, and `layers_blame`, `layers_foldl`:
  why one field is enough for them.
- `DecodeError.Blames`, `DecodeError.BlamesWithin`: what an error has to say.
- `Stack.Nested.reached`: the open expressions exist and are so many references away;
  `Stack.Nested.blames_of_step` is what a step blames.
- `View.lookup_eq_error`, `View.column_eq_error`, `View.child_eq_error`: how the steps to a
  child fail.
- `View.blames_existing`: all operations on a view together.
-/

namespace FlatTree

/-! ## Annotations -/

namespace DecodeError

/-- An error as annotations around what caused it. -/
inductive Layers where
  | cause (cause : Cause)
  | within (index : Nat) (inner : Layers)

/-- Annotates an error with an expression, unless it is annotated. -/
def Layers.annotate (e : Layers) (index : Nat) : Layers :=
  match e with
  | cause c => within index (cause c)
  | within inner rest => within inner rest

/-- What an error stands for. -/
def layers (e : DecodeError) : Layers :=
  match e.blamed with
  | some index => .within index (.cause e.cause)
  | none => .cause e.cause

/-- Blaming is annotating. -/
theorem layers_blame (index : Nat) (e : DecodeError) :
    (e.blame index).layers = e.layers.annotate index := by
  obtain ⟨cause, blamed⟩ := e
  cases blamed <;> rfl

/-- However often a cause is annotated, the first annotation is the only one. -/
theorem layers_foldl (cause : Cause) (indices : List Nat) :
    indices.foldl Layers.annotate (.cause cause) = layers ⟨cause, indices.head?⟩ := by
  have hkept : ∀ (index : Nat) (rest : List Nat),
      rest.foldl Layers.annotate (.within index (.cause cause)) =
        .within index (.cause cause) := by
    intro index rest
    induction rest with
    | nil => rfl
    | cons next rest ih => exact ih
  cases indices with
  | nil => rfl
  | cons index rest => exact hkept index rest

/-- An error with one annotation, which blames an expression that exists. -/
def Blames (r : Regions) (index : Nat) (e : DecodeError) : Prop :=
  index < r.exprCount ∧ ∃ cause, e.layers = .within index (.cause cause)

/-- An error with one annotation, which blames an expression that exists and is so many
references away at most. -/
def BlamesWithin (r : Regions) (distance index : Nat) (e : DecodeError) : Prop :=
  ∃ n ≤ distance, ∃ blamed, r.Chain n index blamed ∧ e.Blames r blamed

variable {r : Regions} {index : Nat} {e : DecodeError}

/-- A cause that nothing is blamed for yet is blamed on the expression around it. -/
theorem Blames.blame_ofCause (h : index < r.exprCount) (cause : Cause) :
    Blames r index ((ofCause cause).blame index) :=
  ⟨h, cause, rfl⟩

/-- An expression is no reference away from itself. -/
theorem Blames.within (h : e.Blames r index) (distance : Nat) : e.BlamesWithin r distance index :=
  ⟨0, Nat.zero_le _, index, .nil, h⟩

/-- What is blamed in a child is one reference further away. -/
theorem BlamesWithin.of_refers {next distance : Nat} (hnext : r.Refers index next)
    (h : e.BlamesWithin r distance next) : e.BlamesWithin r (distance + 1) index := by
  obtain ⟨n, hn, blamed, hchain, hblames⟩ := h
  exact ⟨n + 1, Nat.succ_le_succ hn, blamed, .cons hnext hchain, hblames⟩

end DecodeError

/-! ## Materializing -/

namespace Frame

variable {r : Regions} {f : Frame}

/-- The child that was yielded last is referred to, and exists. -/
theorem YieldedLast.refers {child : Nat} (h : f.YieldedLast r child) :
    r.Refers f.index child ∧ child < r.exprCount := by
  obtain ⟨n, -, hanswer⟩ := h
  rw [Cursor.yield_toList] at hanswer
  exact Cursor.refers_of_mem_toList (List.mem_of_getElem? hanswer)

end Frame

namespace Stack

variable {r : Regions} {index : Nat} {s : Stack}

/-- An open expression exists, and references lead to it, as many as it is deep. -/
theorem Nested.reached {f : Frame} {below : List Frame} (h : Nested r index f below)
    (hindex : index < r.exprCount) :
    r.Chain f.depth index f.index ∧ f.depth ≤ defaultMaxDepth ∧ f.index < r.exprCount := by
  induction h with
  | root hroot hzero _ _ =>
    rw [hroot, hzero]
    exact ⟨.nil, Nat.zero_le _, hindex⟩
  | child hstands _ _ ih =>
    obtain ⟨hrefers, hexists⟩ := hstands.latest.refers
    obtain ⟨hchain, -, -⟩ := ih
    refine ⟨?_, hstands.within, hexists⟩
    rw [hstands.depth]
    exact hchain.snoc hrefers

/-- **What a step blames**: the expression on top, the one below it, or the child that it
does not open. -/
theorem Nested.blames_of_step {e : DecodeError} (h : Nested r index s.top s.below)
    (hindex : index < r.exprCount) (hstep : s.step r = .finished (.error e)) :
    e.BlamesWithin r (defaultMaxDepth + 1) index := by
  have hspec := stepsTo_step r s
  rw [hstep] at hspec
  obtain ⟨hchain, hdepth, hexists⟩ := h.reached hindex
  obtain ⟨n, hcalled⟩ := h.called
  cases hspec with
  | unopened hnext hstart =>
    obtain ⟨hrefers, hchild⟩ := Cursor.refers_of_mem_toList (hcalled.mem_toList hnext)
    obtain ⟨cause, rfl, -⟩ := Frame.start_eq_error hstart
    exact ⟨_, Nat.succ_le_succ hdepth, _, hchain.snoc hrefers, hchild, cause, rfl⟩
  | breaks hnext =>
    obtain ⟨fault, rfl⟩ := Cursor.error_of_mem_toList (hcalled.mem_toList hnext)
    exact ⟨_, Nat.le_succ_of_le hdepth, _, hchain, hexists, _, rfl⟩
  | refuses hnext hpush =>
    obtain ⟨-, rfl⟩ := Frame.eq_of_pushScalar_error hpush
    obtain ⟨shape, hshape⟩ := Frame.notAnEntry_eq _
    rw [hshape]
    exact ⟨_, Nat.le_succ_of_le hdepth, _, hchain, .blame_ofCause hexists _⟩
  | unfolded hnext hbelow haccept =>
    rw [hbelow] at h
    obtain ⟨hfolds, hrest⟩ := h.folds
    obtain ⟨hparent, hless, hthere⟩ := hrest.reached hindex
    rw [haccept] at hfolds
    rw [hfolds.error]
    exact ⟨_, Nat.le_succ_of_le hless, _, hparent, .blame_ofCause hthere _⟩

end Stack

namespace View

open DecodeError (Blames BlamesWithin)

variable {v : View} {e : DecodeError}

theorem blames_of_materialize (hindex : v.index < v.regions.exprCount)
    (h : v.materialize = .error e) : e.BlamesWithin v.regions (defaultMaxDepth + 1) v.index := by
  rcases materialize_eq_error h with hstart | ⟨s, hreaches, hstep⟩
  · obtain ⟨cause, rfl, -⟩ := Frame.start_eq_error hstart
    exact Blames.within ⟨hindex, cause, rfl⟩ _
  · exact (nested_of_reaches hreaches).blames_of_step hindex hstep

/-! ## The expression itself -/

theorem blames_of_head (hindex : v.index < v.regions.exprCount) (h : v.head = .error e) :
    e.Blames v.regions v.index := by
  obtain ⟨_, hhead, rfl⟩ := Decoded.blaming_eq_error.mp h
  obtain ⟨fault, rfl⟩ := headOf_eq_error hhead
  exact .blame_ofCause hindex _

theorem blames_of_shape (hindex : v.index < v.regions.exprCount) (h : v.shape = .error e) :
    e.Blames v.regions v.index := by
  unfold shape at h
  exact blames_of_head hindex (bind_pure_eq_error.mp h)

theorem blames_of_arity (hindex : v.index < v.regions.exprCount) (h : v.arity = .error e) :
    e.Blames v.regions v.index := by
  unfold arity at h
  obtain ⟨_, hrange, rfl⟩ := Decoded.blaming_eq_error.mp h
  obtain ⟨fault, -, rfl⟩ := Decoded.lift_eq_error.mp (bind_pure_eq_error.mp hrange)
  exact .blame_ofCause hindex _

/-- Whatever a cursor over children fails for, their expression is blamed for it. -/
theorem blames_of_mem {wanted : Option SlotType} (hindex : v.index < v.regions.exprCount)
    (h : .error e ∈ (Cursor.start v.regions v.index wanted).toList v.regions) :
    e.Blames v.regions v.index := by
  obtain ⟨fault, rfl⟩ := Cursor.error_of_mem_toList h
  exact ⟨hindex, _, rfl⟩

/-! ## Steps to a child -/

/-- A step to a child fails as a cursor does, or finds nothing there. -/
theorem child_eq_error {n : Nat} (hindex : v.index < v.regions.exprCount)
    (h : v.child n = .error e) :
    e.Blames v.regions v.index ∨ ∃ length ≤ n, e = .ofCause (.indexOutOfRange n length) := by
  obtain ⟨held, e?, hheld⟩ := v.exists_held
  rw [child_of_held hheld] at h
  cases hitem : (held.map v.item)[n]? with
  | some item =>
    rw [hitem] at h
    cases h
  | none =>
    rw [hitem] at h
    cases e? with
    | none =>
      cases h
      exact .inr ⟨_, List.getElem?_eq_none_iff.mp hitem, rfl⟩
    | some inner =>
      cases h
      have hmem : .error inner ∈ v.arguments.toList v.regions := by
        rw [hheld]
        simp
      exact .inl (blames_of_mem hindex hmem)

/-- What a cursor over the children of a view brings. -/
structure Offers (v : View) (items : List (Decoded Slot)) : Prop where
  error : ∀ e, .error e ∈ items → e.Blames v.regions v.index
  child : ∀ child, .ok (.expression child) ∈ items →
    v.regions.Refers v.index child ∧ child < v.regions.exprCount

theorem offers_start (hindex : v.index < v.regions.exprCount) (wanted : Option SlotType) :
    v.Offers ((Cursor.start v.regions v.index wanted).toList v.regions) :=
  ⟨fun _ => blames_of_mem hindex, fun _ => Cursor.refers_of_mem_toList⟩

theorem Offers.tail {item : Decoded Slot} {rest : List (Decoded Slot)}
    (h : v.Offers (item :: rest)) : v.Offers rest :=
  ⟨fun e he => h.error e (List.mem_cons_of_mem _ he),
    fun child hchild => h.child child (List.mem_cons_of_mem _ hchild)⟩

theorem Offers.within_of_error {items : List (Decoded Slot)} (h : v.Offers items)
    (herror : .error e ∈ items) : e.BlamesWithin v.regions 1 v.index :=
  (h.error e herror).within 1

/-- What is blamed on a child is one reference away. -/
theorem Offers.within_of_child {items : List (Decoded Slot)} {child : Nat} (h : v.Offers items)
    (hchild : .ok (.expression child) ∈ items) (hblames : e.Blames v.regions child) :
    e.BlamesWithin v.regions 1 v.index :=
  .of_refers (h.child child hchild).1 (hblames.within 0)

/-- A lookup finds one of the children. -/
theorem lookupFrom_eq_ok {key : String} {w : View} {items : List (Decoded Slot)}
    (h : v.lookupFrom key items = .ok w) :
    ∃ child, .ok (.expression child) ∈ items ∧ w = ⟨v.regions, child⟩ := by
  induction items with
  | nil => cases h
  | cons item rest ih =>
    unfold lookupFrom at h
    obtain ⟨slot, hslot, hfound⟩ := bind_eq_ok.mp h
    have hrest : v.lookupFrom key rest = .ok w →
        ∃ child, .ok (.expression child) ∈ item :: rest ∧ w = ⟨v.regions, child⟩ := by
      intro hlookup
      obtain ⟨child, hchild, hw⟩ := ih hlookup
      exact ⟨child, List.mem_cons_of_mem _ hchild, hw⟩
    cases slot with
    | scalar value => exact hrest hfound
    | expression child =>
      obtain ⟨head, -, hfound⟩ := bind_eq_ok.mp hfound
      by_cases hkey : head = key
      · simp only [if_pos hkey, pure_eq_ok] at hfound
        rw [hslot]
        exact ⟨child, List.mem_cons_self, hfound.symm⟩
      · simp only [if_neg hkey] at hfound
        exact hrest hfound

/-- A lookup fails in the expression, in the head of a child, or for the key. -/
theorem lookupFrom_eq_error {key : String} {items : List (Decoded Slot)}
    (hitems : v.Offers items) (h : v.lookupFrom key items = .error e) :
    e.BlamesWithin v.regions 1 v.index ∨ e = .ofCause (.keyNotFound key) := by
  induction items with
  | nil =>
    cases h
    exact .inr rfl
  | cons item rest ih =>
    unfold lookupFrom at h
    rcases bind_eq_error.mp h with hitem | ⟨slot, hslot, hfailed⟩
    · exact .inl (hitems.within_of_error (hitem ▸ List.mem_cons_self))
    cases slot with
    | scalar value => exact ih hitems.tail hfailed
    | expression child =>
      have hmem : .ok (.expression child) ∈ item :: rest := hslot ▸ List.mem_cons_self
      have hchild := (hitems.child child hmem).2
      rcases bind_eq_error.mp hfailed with hhead | ⟨head, -, hfailed⟩
      · have hblames := blames_of_head (v := ⟨v.regions, child⟩) hchild hhead
        exact .inl (hitems.within_of_child hmem hblames)
      · by_cases hkey : head = key
        · simp only [if_pos hkey] at hfailed
          cases hfailed
        · simp only [if_neg hkey] at hfailed
          exact ih hitems.tail hfailed

/-- Whether an entry is a named column is found out from its arity and its slots. -/
theorem namedColumn_eq_error (h : v.namedColumn = .error e) :
    v.arity = .error e ∨ .error e ∈ v.arguments.toList v.regions := by
  unfold namedColumn at h
  rcases bind_eq_error.mp h with harity | ⟨n, -, hfailed⟩
  · exact .inl harity
  by_cases hn : n ≠ 2
  · rw [if_pos hn] at hfailed
    cases hfailed
  rw [if_neg hn] at hfailed
  refine .inr ?_
  cases hfirst : v.arguments.next v.regions with
  | none =>
    rw [hfirst] at hfailed
    cases hfailed
  | some found =>
    obtain ⟨first, rest⟩ := found
    rw [Cursor.toList_of_some hfirst]
    rw [hfirst] at hfailed
    rcases bind_eq_error.mp hfailed with rfl | ⟨slot, rfl, hslot⟩
    · exact List.mem_cons_self
    refine List.mem_cons_of_mem _ ?_
    cases hsecond : rest.next v.regions with
    | none =>
      rw [hsecond] at hslot
      cases hslot
    | some found =>
      obtain ⟨second, last⟩ := found
      rw [Cursor.toList_of_some hsecond]
      rw [hsecond] at hslot
      rcases bind_eq_error.mp hslot with rfl | ⟨other, rfl, hnamed⟩
      · exact List.mem_cons_self
      · -- With both slots there, nothing is left to fail.
        split at hnamed
        · cases hnamed
        · cases hnamed

theorem blames_of_namedColumn (hindex : v.index < v.regions.exprCount)
    (h : v.namedColumn = .error e) : e.Blames v.regions v.index := by
  rcases namedColumn_eq_error h with harity | hmem
  · exact blames_of_arity hindex harity
  · exact blames_of_mem hindex hmem

/-- A column is not found in the expression, in an entry, or for its name. -/
theorem columnFrom_eq_error {name : String} {items : List (Decoded Slot)}
    (hitems : v.Offers items) (h : v.columnFrom name items = .error e) :
    e.BlamesWithin v.regions 1 v.index ∨ e = .ofCause (.keyNotFound name) := by
  induction items with
  | nil =>
    cases h
    exact .inr rfl
  | cons item rest ih =>
    unfold columnFrom at h
    rcases bind_eq_error.mp h with hitem | ⟨slot, hslot, hfailed⟩
    · exact .inl (hitems.within_of_error (hitem ▸ List.mem_cons_self))
    cases slot with
    | scalar value => exact ih hitems.tail hfailed
    | expression child =>
      have hmem : .ok (.expression child) ∈ item :: rest := hslot ▸ List.mem_cons_self
      have hchild := (hitems.child child hmem).2
      rcases bind_eq_error.mp hfailed with hnamed | ⟨named, -, hfailed⟩
      · have hblames := blames_of_namedColumn (v := ⟨v.regions, child⟩) hchild hnamed
        exact .inl (hitems.within_of_child hmem hblames)
      cases named with
      | some column =>
        by_cases hname : column.1 = name
        · simp only [if_pos hname] at hfailed
          cases hfailed
        · simp only [if_neg hname] at hfailed
          exact ih hitems.tail hfailed
      | none =>
        rcases bind_eq_error.mp hfailed with hhead | ⟨head, -, hfailed⟩
        · have hblames := blames_of_head (v := ⟨v.regions, child⟩) hchild hhead
          exact .inl (hitems.within_of_child hmem hblames)
        · by_cases hname : head = name
          · simp only [if_pos hname] at hfailed
            cases hfailed
          · simp only [if_neg hname] at hfailed
            exact ih hitems.tail hfailed

/-- A field is not found, or its entry has no value that can be decoded. -/
theorem field_eq_error {key : String} (hindex : v.index < v.regions.exprCount)
    (h : v.field key = .error e) :
    e.BlamesWithin v.regions 1 v.index ∨ e = .ofCause (.keyNotFound key) ∨
      e = .ofCause (.indexOutOfRange 0 0) := by
  have hoffers := offers_start hindex (some .expression)
  unfold field at h
  rcases bind_eq_error.mp h with hlookup | ⟨entry, hlookup, hchild⟩
  · rcases lookupFrom_eq_error hoffers hlookup with hblames | hkey
    · exact .inl hblames
    · exact .inr (.inl hkey)
  · obtain ⟨child, hmem, rfl⟩ := lookupFrom_eq_ok hlookup
    rcases child_eq_error (hoffers.child child hmem).2 hchild with hblames | ⟨length, hlength, heq⟩
    · exact .inl (hoffers.within_of_child hmem hblames)
    · rw [Nat.le_zero.mp hlength] at heq
      exact .inr (.inr heq)

/-! ## All operations -/

theorem ofIndex_eq_ok {r : Regions} {index : Nat} :
    ofIndex r index = .ok v ↔ v = ⟨r, index⟩ ∧ index < r.exprCount := by
  unfold ofIndex
  rw [bind_pure_eq_ok, ← Regions.exists_record_iff]
  simp only [Decoded.lift_eq_ok]
  constructor
  · rintro ⟨record, hrecord, rfl⟩
    exact ⟨rfl, record, hrecord⟩
  · rintro ⟨rfl, record, hrecord⟩
    exact ⟨record, hrecord, rfl⟩

/-- **Whatever fails is blamed once, on an expression that exists.** Of a view that exists,
its head, its shape, its arity and its cursors blame the expression itself; to materialize it
blames it or one that references lead to from there, no deeper than one level beyond the
limit. A step to a child blames the expression or one of its children, unless there is
nothing there: then the step fails for that, and blames none. -/
theorem blames_existing {r : Regions} {index : Nat} (h : ofIndex r index = .ok v) :
    (∀ e, v.materialize = .error e → e.BlamesWithin r (defaultMaxDepth + 1) index) ∧
    (∀ e, v.head = .error e ∨ v.shape = .error e ∨ v.arity = .error e ∨
      .error e ∈ v.arguments.toList r ∨ (∃ type, .error e ∈ (v.typedArguments type).toList r) →
        e.Blames r index) ∧
    (∀ n e, v.child n = .error e →
      e.Blames r index ∨ ∃ length, e = .ofCause (.indexOutOfRange n length)) ∧
    (∀ key e, v.lookup key = .error e →
      e.BlamesWithin r 1 index ∨ e = .ofCause (.keyNotFound key)) ∧
    (∀ name e, v.column name = .error e →
      e.BlamesWithin r 1 index ∨ e = .ofCause (.keyNotFound name)) ∧
    ∀ key e, v.field key = .error e →
      e.BlamesWithin r 1 index ∨ e = .ofCause (.keyNotFound key) ∨
        e = .ofCause (.indexOutOfRange 0 0) := by
  obtain ⟨rfl, hindex⟩ := ofIndex_eq_ok.mp h
  have hoffers := offers_start (v := ⟨r, index⟩) hindex (some .expression)
  refine ⟨fun e => blames_of_materialize hindex, ?_, fun n e hchild => ?_,
    fun key e => lookupFrom_eq_error hoffers, fun name e => columnFrom_eq_error hoffers,
    fun key e => field_eq_error hindex⟩
  · rintro e (hhead | hshape | harity | hitem | ⟨type, hitem⟩)
    · exact blames_of_head hindex hhead
    · exact blames_of_shape hindex hshape
    · exact blames_of_arity hindex harity
    · exact blames_of_mem (v := ⟨r, index⟩) hindex hitem
    · exact blames_of_mem (v := ⟨r, index⟩) hindex hitem
  · rcases child_eq_error hindex hchild with hblames | ⟨length, -, heq⟩
    · exact .inl hblames
    · exact .inr ⟨length, heq⟩

/-- A list of one expression, which holds a symbol of which the text lies past the heap. -/
def tornList : RawBuffer where
  args := #[0, 1, 99]
  tags := #[5, 5, 4]
  exprs := #[⟨0, 1, 2⟩, ⟨5, 2, 3⟩]
  strings := RawBuffer.textEntry "List" ++ RawBuffer.textEntry "f"

/-- The expression in the list is blamed for its symbol, and none for a key that is missing. -/
theorem blames_existing_tornList :
    ∃ v, ofIndex tornList.regions 0 = .ok v ∧
      v.materialize = .error ⟨.fault (.textOutOfRange 99 7), some 1⟩ ∧
      BlamesWithin tornList.regions (defaultMaxDepth + 1) 0
        ⟨.fault (.textOutOfRange 99 7), some 1⟩ ∧
      ∃ e, v.lookup "g" = .error e ∧
        (e.BlamesWithin tornList.regions 1 0 ∨ e = .ofCause (.keyNotFound "g")) := by
  have hview : ofIndex tornList.regions 0 = .ok ⟨tornList.regions, 0⟩ :=
    ofIndex_eq_ok.mpr ⟨rfl, by decide +kernel⟩
  have hbreaks : ((View.mk tornList.regions 0).progress 2).error? =
      some ⟨.fault (.textOutOfRange 99 7), some 1⟩ := by decide +kernel
  have hfailed := materialize_of_error? hbreaks
  have hmissing : (View.mk tornList.regions 0).lookup "g" = .error (.ofCause (.keyNotFound "g")) :=
    map_eq_error.mp (show Except.map (fun _ => ()) _ = _ by decide +kernel)
  obtain ⟨hmaterialize, -, -, hlookup, -⟩ := blames_existing hview
  exact ⟨_, hview, hfailed, hmaterialize _ hfailed, _, hmissing, hlookup "g" _ hmissing⟩

end View

end FlatTree
