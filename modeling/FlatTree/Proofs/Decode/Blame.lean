import FlatTree.Proofs.Decode.Limit

/-!
# The blamed expression

A failed decode blames one expression. Failures pass through every expression above the
one in which they arise, and only that one is blamed, so the blame can be checked: the
expression is among those that were decoded, and decoded alone it fails as well. The
second is not the first said again. In context there may be fewer levels left, and an
entry is not promoted, while alone it is, so that the failure can be another one.

- `Decoded.Unblamed`: failures of reads that blame nothing yet.
- `Eager.InnerFailure`: what can fail inside an expression, `Eager.expression_succ_eq_error`
  and `Eager.rawEntry_succ_eq_error`: that a step fails for nothing else.
- `Eager.FailsAlone`: decoded alone the expression fails and is blamed.
- `Eager.BlamesAt`: with so many levels left, whoever is blamed fails alone.
- `Eager.blamed_of_decodeExpression`: the same from the start.
-/

namespace FlatTree

namespace Decoded

variable {α β : Type}

/-- If this fails, no expression is blamed for it yet. -/
def Unblamed (d : Decoded α) : Prop := d.FailsWith fun e => e.blamed = none

theorem unblamed_lift (read : Except Fault α) : Unblamed (lift read) :=
  FailsWith.lift fun _ _ => rfl

theorem unblamed_ofCause (cause : Cause) : Unblamed (.error (.ofCause cause) : Decoded α) :=
  FailsWith.error rfl

/-- Reads that are each followed by a step fail for the fault that ends the reads, or in
the step after a read that succeeds. -/
theorem mapM_lift_bind_eq_error {g : α → Decoded β} {e : DecodeError} :
    ∀ {reads : List (Except Fault α)}, (reads.mapM fun read => lift read >>= g) = .error e →
      (∃ fault, reads.mapM id = .error fault ∧ e = .ofFault fault) ∨
        ∃ a, .ok a ∈ reads ∧ g a = .error e
  | [], h => by cases h
  | .error fault :: _, h => by
    cases h
    exact .inl ⟨fault, rfl, rfl⟩
  | .ok a :: reads, h => by
    rw [List.mapM_cons] at h
    rcases bind_eq_error.mp h with hfirst | ⟨b, -, hrest⟩
    · exact .inr ⟨a, List.mem_cons_self, hfirst⟩
    · rcases mapM_lift_bind_eq_error (bind_pure_eq_error.mp hrest) with
        ⟨fault, hfault, rfl⟩ | ⟨a', hmem, ha'⟩
      · refine .inl ⟨fault, ?_, rfl⟩
        rw [List.mapM_cons, hfault]
        rfl
      · exact .inr ⟨a', List.mem_cons_of_mem _ hmem, ha'⟩

end Decoded

namespace Eager

open Decoded (FailsWith)

variable {r : Regions} {index : Nat} {e : DecodeError}

/-! ## Where a step fails -/

theorem unblamed_headOf (r : Regions) (index : Nat) : (headOf r index).Unblamed :=
  (Decoded.unblamed_lift _).bind fun _ _ => Decoded.unblamed_lift _

theorem unblamed_entryIndices (r : Regions) (shape : Shape) (index : Nat) :
    ∀ items, (entryIndices r shape index items).Unblamed
  | [] => .ok []
  | .error fault :: _ => Decoded.unblamed_ofCause (.fault fault)
  | .ok block :: rest => by
    by_cases htype : block.type = .expression
    · rw [entryIndices_cons htype]
      refine (FailsWith.mapM fun _ _ => Decoded.unblamed_lift _).bind fun words _ => ?_
      exact (unblamed_entryIndices r shape index rest).bind fun later _ => .ok _
    · rw [entryIndices_cons_ne htype]
      exact Decoded.unblamed_ofCause _

/-- Whether the slots are entries is decided before any of them is decoded. -/
theorem unblamed_entries (r : Regions) (shape : Shape) (index : Nat) :
    (entries r shape index).Unblamed :=
  (Decoded.unblamed_lift _).bind fun _ _ => unblamed_entryIndices r shape index _

theorem unblamed_objectEntry (entry : Nat) (arguments : List Value) :
    (objectEntry entry arguments).Unblamed := by
  rw [objectEntry.eq_def]
  split
  · exact .ok _
  · exact Decoded.unblamed_ofCause _

/-- Children fail for the fault of the slots, or one of them fails. -/
theorem children_eq_error {child : Nat → Decoded Value}
    (h : children r child index = .error e) :
    (∃ fault, r.childSlots index = .error fault ∧ e = .ofFault fault) ∨
      ∃ next, r.Refers index next ∧ child next = .error e := by
  rw [children_eq_mapM] at h
  rcases Decoded.mapM_lift_bind_eq_error h with ⟨fault, hfault, rfl⟩ | ⟨s, hs, hfailed⟩
  · exact .inl ⟨fault, (Regions.childSlots_eq_mapM index).trans hfault, rfl⟩
  · cases s with
    | scalar value => cases hfailed
    | expression next => exact .inr ⟨next, .of_mem_reads hs, hfailed⟩

/-- A map fails where one of its entries does. -/
theorem collect_eq_error {entry : Nat → Decoded (String × Value)} :
    ∀ {indices : List Nat} {map : Entries Value}, collect entry indices map = .error e →
      ∃ next ∈ indices, entry next = .error e
  | [], _, h => by cases h
  | index :: rest, map, h => by
    rcases bind_eq_error.mp h with hfirst | ⟨_, -, hrest⟩
    · exact ⟨index, List.mem_cons_self, hfirst⟩
    · obtain ⟨next, hnext, hfailed⟩ := collect_eq_error hrest
      exact ⟨next, List.mem_cons_of_mem _ hnext, hfailed⟩

variable {limit levels : Nat}

/-- How a map fails: its expression has no entries, or one of them fails. -/
theorem entries_bind_collect_eq_error {shape : Shape} {entry : Nat → Decoded (String × Value)}
    {wrap : Entries Value → Value}
    (h : (entries r shape index >>= fun indices => collect entry indices [] >>= fun map =>
      pure (wrap map)) = .error e) :
    e.blamed = none ∨ ∃ next, r.Refers index next ∧ entry next = .error e := by
  rcases bind_eq_error.mp h with hnone | ⟨indices, hindices, hcollect⟩
  · exact .inl (unblamed_entries r shape index _ hnone)
  · obtain ⟨next, hnext, hfailed⟩ := collect_eq_error (bind_pure_eq_error.mp hcollect)
    exact .inr ⟨next, refers_of_entries hindices hnext, hfailed⟩

/-- What can fail inside an expression: what is read of it, and then nothing is blamed yet, or
an expression that it refers to, promoted or as an entry. -/
inductive InnerFailure (r : Regions) (limit levels index : Nat) (e : DecodeError) : Prop where
  | own : e.blamed = none → InnerFailure r limit levels index e
  | expression {next : Nat} : r.Refers index next →
    Eager.expression r limit levels next = .error e → InnerFailure r limit levels index e
  | entry {next : Nat} : r.Refers index next →
    rawEntry r limit levels next = .error e → InnerFailure r limit levels index e

theorem InnerFailure.of_children
    (h : children r (Eager.expression r limit levels) index = .error e) :
    InnerFailure r limit levels index e := by
  rcases children_eq_error h with ⟨fault, -, rfl⟩ | ⟨next, hnext, hfailed⟩
  · exact .own rfl
  · exact .expression hnext hfailed

/-- An expression fails for something inside it, and is blamed unless that blames another. -/
theorem expression_succ_eq_error (h : Eager.expression r limit (levels + 1) index = .error e) :
    ∃ inner, e = inner.blame index ∧ InnerFailure r limit levels index inner := by
  rw [Eager.expression] at h
  obtain ⟨inner, hinner, rfl⟩ := Decoded.blaming_eq_error.mp h
  refine ⟨inner, rfl, ?_⟩
  rcases bind_eq_error.mp hinner with hhead | ⟨head, -, hinner⟩
  · exact .own (unblamed_headOf r index inner hhead)
  cases hshape : Shape.ofHead head with
  | list =>
    rw [hshape] at hinner
    exact .of_children (bind_pure_eq_error.mp hinner)
  | generic =>
    rw [hshape] at hinner
    exact .of_children (bind_pure_eq_error.mp hinner)
  | object =>
    rw [hshape] at hinner
    rcases entries_bind_collect_eq_error hinner with hnone | ⟨next, hnext, hentry⟩
    · exact .own hnone
    · rcases bind_eq_error.mp hentry with hraw | ⟨⟨key, arguments⟩, -, hvalue⟩
      · exact .entry hnext hraw
      · -- The rule for entries is broken by the object, and not by its entry.
        exact .own (unblamed_objectEntry next arguments inner (bind_pure_eq_error.mp hvalue))
  | table =>
    rw [hshape] at hinner
    rcases entries_bind_collect_eq_error hinner with hnone | ⟨next, hnext, hentry⟩
    · exact .own hnone
    · exact .entry hnext (bind_pure_eq_error.mp hentry)

/-- An entry fails for its head, for a fault of its slots, or for one of its children. -/
theorem rawEntry_succ_eq_error (h : rawEntry r limit (levels + 1) index = .error e) :
    ∃ inner, e = inner.blame index ∧
      (headOf r index = .error inner ∨
        (∃ fault, r.childSlots index = .error fault ∧ inner = .ofFault fault ∧
          children r (Eager.expression r limit levels) index = .error inner) ∨
        ∃ next, r.Refers index next ∧ Eager.expression r limit levels next = .error inner) := by
  rw [rawEntry] at h
  obtain ⟨inner, hinner, rfl⟩ := Decoded.blaming_eq_error.mp h
  refine ⟨inner, rfl, ?_⟩
  rcases bind_eq_error.mp hinner with hhead | ⟨head, -, hinner⟩
  · exact .inl hhead
  have hchildren := bind_pure_eq_error.mp hinner
  rcases children_eq_error hchildren with ⟨fault, hfault, heq⟩ | hnext
  · exact .inr (.inl ⟨fault, hfault, heq, hchildren⟩)
  · exact .inr (.inr hnext)

/-! ## Alone -/

/-- Decoded alone, with the whole limit left, the expression fails and is blamed itself. -/
def FailsAlone (r : Regions) (limit index : Nat) : Prop :=
  ∃ cause, decodeExpression r limit index = .error ⟨cause, some index⟩

/-- An expression without a head fails, however it is decoded. -/
theorem FailsAlone.of_headOf (h : headOf r index = .error e) : FailsAlone r limit index := by
  refine ⟨e.cause, ?_⟩
  rw [decodeExpression, Eager.expression, h, error_bind, Decoded.blaming,
    DecodeError.blame_of_none (unblamed_headOf r index _ h)]

/-- An object or a table whose slots have a fault has no entries, and is blamed for that. -/
theorem blaming_entries_bind {fault : Fault} (h : r.childSlots index = .error fault)
    (shape : Shape) (f : List Nat → Decoded Value) :
    ∃ cause, Decoded.blaming index (entries r shape index >>= f) = .error ⟨cause, some index⟩ := by
  cases hentries : entries r shape index with
  | ok indices =>
    rw [entries_eq_ok.mp hentries] at h
    cases h
  | error e =>
    refine ⟨e.cause, ?_⟩
    rw [error_bind, Decoded.blaming,
      DecodeError.blame_of_none (unblamed_entries r shape index e hentries)]

/-- If an entry fails for the fault of its slots, alone it fails as well. Promoted to an object
or a table it can fail for another cause. -/
theorem FailsAlone.of_children {fault : Fault} (hlevels : levels ≤ limit)
    (hslots : r.childSlots index = .error fault)
    (h : children r (Eager.expression r limit levels) index = .error (.ofFault fault)) :
    FailsAlone r limit index := by
  have hchildren : children r (Eager.expression r limit limit) index = .error (.ofFault fault) := by
    rcases ((sameUpTo r limit limit hlevels).children index).failed_or_eq with
      ⟨e, ⟨last, rfl, -⟩, hfailed⟩ | heq
    · rw [hfailed] at h
      cases h
    · rw [← heq, h]
  cases hhead : headOf r index with
  | error e => exact .of_headOf hhead
  | ok head =>
    rw [FailsAlone, decodeExpression, Eager.expression, hhead, ok_bind]
    cases Shape.ofHead head with
    | list => exact ⟨.fault fault, by rw [hchildren]; rfl⟩
    | generic => exact ⟨.fault fault, by rw [hchildren]; rfl⟩
    | object => exact blaming_entries_bind hslots .object _
    | table => exact blaming_entries_bind hslots .table _

/-! ## The induction on the levels left -/

/-- A failure is blamed on an expression that a chain of references leads to, and that fails
alone unless it is too deep. -/
def Blames (r : Regions) (limit index : Nat) (e : DecodeError) : Prop :=
  ∃ blamed, e.blamed = some blamed ∧ (∃ n, r.Chain n index blamed) ∧
    ((∀ l, e.cause ≠ .depthLimitExceeded l) → FailsAlone r limit blamed)

/-- What is blamed below an expression stays blamed in it. -/
theorem Blames.of_refers {next : Nat} (hnext : r.Refers index next)
    (h : Blames r limit next e) : Blames r limit index (e.blame index) := by
  obtain ⟨blamed, hblamed, ⟨n, hchain⟩, halone⟩ := h
  rw [DecodeError.blame_of_some hblamed]
  exact ⟨blamed, hblamed, ⟨n + 1, .cons hnext hchain⟩, halone⟩

/-- An expression that fails by itself is blamed. -/
theorem Blames.of_none (h : e.blamed = none)
    (halone : (∀ l, e.cause ≠ .depthLimitExceeded l) → FailsAlone r limit index) :
    Blames r limit index (e.blame index) := by
  rw [DecodeError.blame_of_none h]
  exact ⟨index, rfl, ⟨0, .nil⟩, halone⟩

/-- An expression for which no level is left is blamed, and nothing is said of it alone. -/
theorem Blames.of_limit : Blames r limit index ⟨.depthLimitExceeded limit, some index⟩ :=
  ⟨index, rfl, ⟨0, .nil⟩, fun hcause => absurd rfl (hcause limit)⟩

/-- With so many levels left every failure is blamed on an expression that fails alone. -/
structure BlamesAt (r : Regions) (limit levels : Nat) : Prop where
  expression : ∀ {index e}, Eager.expression r limit levels index = .error e →
    Blames r limit index e
  entry : ∀ {index e}, rawEntry r limit levels index = .error e → Blames r limit index e

theorem BlamesAt.expression_succ (h : BlamesAt r limit levels) (hlevels : levels ≤ limit)
    (hfailed : Eager.expression r limit (levels + 1) index = .error e) :
    Blames r limit index e := by
  obtain ⟨inner, rfl, hinner⟩ := expression_succ_eq_error hfailed
  cases hinner with
  | expression hnext hbelow => exact .of_refers hnext (h.expression hbelow)
  | entry hnext hbelow => exact .of_refers hnext (h.entry hbelow)
  | own hnone =>
    refine .of_none hnone fun hcause => ⟨inner.cause, ?_⟩
    -- With more levels it fails in the same way, as the levels were not what it lacked.
    rcases ((sameUpTo r limit limit (Nat.succ_le_succ hlevels)).expression index).failed_or_eq with
      ⟨_, ⟨last, rfl, -⟩, hlimited⟩ | heq
    · rw [hfailed, DecodeError.blame_of_none hnone, Except.error.injEq, DecodeError.mk.injEq]
        at hlimited
      exact absurd hlimited.1 (hcause limit)
    · rw [decodeExpression, ← heq, hfailed, DecodeError.blame_of_none hnone]

theorem BlamesAt.rawEntry_succ (h : BlamesAt r limit levels) (hlevels : levels ≤ limit)
    (hfailed : rawEntry r limit (levels + 1) index = .error e) : Blames r limit index e := by
  obtain ⟨inner, rfl, hhead | ⟨fault, hslots, rfl, hchildren⟩ | ⟨next, hnext, hbelow⟩⟩ :=
    rawEntry_succ_eq_error hfailed
  · exact .of_none (unblamed_headOf r index inner hhead) fun _ => .of_headOf hhead
  · exact .of_none rfl fun _ => .of_children hlevels hslots hchildren
  · exact .of_refers hnext (h.expression hbelow)

/-- The levels never exceed what is left at the start. -/
theorem blamesAt (r : Regions) (limit : Nat) :
    ∀ {levels : Nat}, levels ≤ limit + 1 → BlamesAt r limit levels
  | 0, _ => by
    refine ⟨fun h => ?_, fun h => ?_⟩
    · rw [Eager.expression] at h
      cases h
      exact .of_limit
    · rw [rawEntry] at h
      cases h
      exact .of_limit
  | levels + 1, h =>
    have hlevels := Nat.le_of_succ_le_succ h
    have ih := blamesAt r limit (Nat.le_succ_of_le hlevels)
    ⟨ih.expression_succ hlevels, ih.rawEntry_succ hlevels⟩

/-- **Blame is sound**: a failed decode blames one expression, which is the one it started at
or one that a chain of references leads to. Unless that one is too deep, decoding it alone
under the same limit fails too, and blames it again. -/
theorem blamed_of_decodeExpression {limit index : Nat} {e : DecodeError}
    (h : decodeExpression r limit index = .error e) :
    ∃ blamed, e.blamed = some blamed ∧ (∃ n, r.Chain n index blamed) ∧
      ((∀ l, e.cause ≠ .depthLimitExceeded l) →
        ∃ cause, decodeExpression r limit blamed = .error ⟨cause, some blamed⟩) :=
  (blamesAt r limit (Nat.le_refl _)).expression h

/-- An object whose only entry is called like an object too, and holds a text from outside the
heap. -/
def faultyLayout : RawBuffer where
  args := #[1, 99]
  tags := #[5, 3]
  exprs := #[⟨0, 0, 1⟩, ⟨0, 1, 2⟩]
  strings := RawBuffer.textEntry "Object"

/-- The entry is blamed for its text. Decoded alone it is promoted, and blamed for an entry that
is no expression. -/
theorem blamed_of_decodeExpression_faultyLayout :
    decodeExpression faultyLayout.regions defaultMaxDepth 0 =
        .error ⟨.fault (.textOutOfRange 99 7), some 1⟩ ∧
      (∃ n, faultyLayout.regions.Chain n 0 1) ∧
      ∃ cause, decodeExpression faultyLayout.regions defaultMaxDepth 1 = .error ⟨cause, some 1⟩ ∧
        cause = .malformedShape .object 1 .notAnExpression := by
  have hfailed : decodeExpression faultyLayout.regions defaultMaxDepth 0 =
      .error ⟨.fault (.textOutOfRange 99 7), some 1⟩ :=
    map_eq_error.mp (show Except.map (fun _ => ()) _ = _ by decide +kernel)
  have hother : decodeExpression faultyLayout.regions defaultMaxDepth 1 =
      .error ⟨.malformedShape .object 1 .notAnExpression, some 1⟩ :=
    map_eq_error.mp (show Except.map (fun _ => ()) _ = _ by decide +kernel)
  obtain ⟨blamed, hblamed, hchain, halone⟩ := blamed_of_decodeExpression hfailed
  cases hblamed
  obtain ⟨cause, halone⟩ := halone fun l => by simp
  refine ⟨hfailed, hchain, cause, halone, ?_⟩
  rw [hother] at halone
  cases halone
  rfl

end Eager

end FlatTree
