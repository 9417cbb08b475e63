import FlatTree.Proofs.Decode.Walk

/-!
# Decoding under two limits

A limit on the nesting is felt only where it is hit. Decoding with fewer levels left
takes the same steps as with more, until it meets an expression for which no level is
left. What happens then is one failure, and it says where that expression is: a chain
of as many references as there were levels leads to it. A level is taken for each
reference, whether what is found there is promoted or decoded as an entry.

- `Decoded.UpTo`: the same outcome, unless the first one is a failure of a given kind.
- `Eager.HitsLimit`: the failure for which no level is left, as far down as it must be.
- `Eager.sameUpTo`: two numbers of levels, under any two limits.
- `Eager.decodeExpression_hitsLimit_or_eq`: two limits.
-/

namespace FlatTree

/-- The same outcome, unless the first one is a failure of a given kind. -/
inductive Decoded.UpTo {α : Type} (P : DecodeError → Prop) : Decoded α → Decoded α → Prop where
  | failed {e : DecodeError} {d' : Decoded α} : P e → UpTo P (.error e) d'
  | same {d : Decoded α} : UpTo P d d

namespace Decoded.UpTo

variable {α β : Type} {P : DecodeError → Prop} {d d' : Decoded α}

theorem failed_or_eq (h : UpTo P d d') : (∃ e, P e ∧ d = .error e) ∨ d = d' := by
  cases h with
  | @failed e _ he => exact .inl ⟨e, he, rfl⟩
  | same => exact .inr rfl

theorem mono {Q : DecodeError → Prop} (h : UpTo P d d') (hmono : ∀ {e}, P e → Q e) :
    UpTo Q d d' := by
  cases h with
  | failed he => exact .failed (hmono he)
  | same => exact .same

/-- Chains are compared link by link, and only as far as the first one comes. -/
theorem bind {f g : α → Decoded β} (h : UpTo P d d')
    (hnext : ∀ {a}, d = .ok a → UpTo P (f a) (g a)) : UpTo P (d >>= f) (d' >>= g) := by
  cases h with
  | failed he => exact .failed he
  | same =>
    cases d with
    | ok a => exact hnext rfl
    | error e => exact .same

/-- A failure that blames an expression already is still the same one. -/
theorem blaming {index : Nat} (h : UpTo P d d') (hP : ∀ {e}, P e → e.blame index = e) :
    UpTo P (Decoded.blaming index d) (Decoded.blaming index d') := by
  cases h with
  | @failed e _ he =>
    rw [Decoded.blaming, hP he]
    exact .failed he
  | same => exact .same

/-- Lists are compared member by member. -/
theorem mapM {f g : α → Decoded β} :
    ∀ {as : List α}, (∀ a ∈ as, UpTo P (f a) (g a)) → UpTo P (as.mapM f) (as.mapM g)
  | [], _ => .same
  | a :: as, h => by
    obtain ⟨ha, has⟩ := List.forall_mem_cons.mp h
    rw [List.mapM_cons, List.mapM_cons]
    exact ha.bind fun _ => (mapM has).bind fun _ => .same

end Decoded.UpTo

namespace Eager

open Decoded (UpTo)

variable {r : Regions} {P : DecodeError → Prop} {index : Nat}

/-! ## One step -/

/-- Children are compared at the references of their expression. -/
theorem children_upTo {child child' : Nat → Decoded Value}
    (h : ∀ {next}, r.Refers index next → UpTo P (child next) (child' next)) :
    UpTo P (children r child index) (children r child' index) := by
  rw [children_eq_mapM, children_eq_mapM]
  refine .mapM fun read hread => UpTo.same.bind fun {s} hs => ?_
  rw [Decoded.lift_eq_ok.mp hs] at hread
  cases s with
  | scalar value => exact .same
  | expression next => exact h (.of_mem_reads hread)

/-- The entries of an expression are among its references. -/
theorem refers_of_entries {shape : Shape} {indices : List Nat}
    (h : entries r shape index = .ok indices) {next : Nat} (hnext : next ∈ indices) :
    r.Refers index next :=
  (Regions.refers_iff_mem (entries_eq_ok.mp h)).mpr (List.mem_map_of_mem hnext)

theorem collect_upTo {entry entry' : Nat → Decoded (String × Value)} :
    ∀ {indices : List Nat} {map : Entries Value},
      (∀ next ∈ indices, UpTo P (entry next) (entry' next)) →
        UpTo P (collect entry indices map) (collect entry' indices map)
  | [], _, _ => .same
  | next :: rest, _, h => by
    obtain ⟨hfirst, hrest⟩ := List.forall_mem_cons.mp h
    exact hfirst.bind fun _ => collect_upTo hrest

/-- Maps are compared at the references of their expression. -/
theorem entries_bind_collect_upTo {shape : Shape} {entry entry' : Nat → Decoded (String × Value)}
    {wrap : Entries Value → Value}
    (h : ∀ {next}, r.Refers index next → UpTo P (entry next) (entry' next)) :
    UpTo P (entries r shape index >>= fun indices => collect entry indices [] >>= fun map =>
        pure (wrap map))
      (entries r shape index >>= fun indices => collect entry' indices [] >>= fun map =>
        pure (wrap map)) :=
  UpTo.same.bind fun hindices =>
    (collect_upTo fun _ hnext => h (refers_of_entries hindices hnext)).bind fun _ => .same

/-! ## The induction on the levels left -/

/-- The failure of an expression for which no level is left: a chain of so many references
leads to it. -/
def HitsLimit (r : Regions) (limit n index : Nat) (e : DecodeError) : Prop :=
  ∃ last, e = ⟨.depthLimitExceeded limit, some last⟩ ∧ r.Chain n index last

variable {limit limit' levels levels' : Nat}

theorem HitsLimit.cons {next n : Nat} {e : DecodeError} (hnext : r.Refers index next)
    (h : HitsLimit r limit n next e) : HitsLimit r limit (n + 1) index e := by
  obtain ⟨last, rfl, hchain⟩ := h
  exact ⟨last, rfl, .cons hnext hchain⟩

/-- It is the last expression that is blamed, and none above it. -/
theorem HitsLimit.blame_eq {n : Nat} {e : DecodeError} (h : HitsLimit r limit n index e)
    (above : Nat) : e.blame above = e := by
  obtain ⟨last, rfl, -⟩ := h
  rfl

/-- With these two numbers of levels left every expression decodes the same, promoted and as
an entry, unless the first number is hit. -/
structure SameUpTo (r : Regions) (limit limit' levels levels' : Nat) : Prop where
  expression : ∀ index, UpTo (HitsLimit r limit levels index)
    (Eager.expression r limit levels index) (Eager.expression r limit' levels' index)
  entry : ∀ index, UpTo (HitsLimit r limit levels index)
    (rawEntry r limit levels index) (rawEntry r limit' levels' index)

namespace SameUpTo

variable (h : SameUpTo r limit limit' levels levels')
include h

theorem children (index : Nat) :
    UpTo (HitsLimit r limit (levels + 1) index)
      (Eager.children r (Eager.expression r limit levels) index)
      (Eager.children r (Eager.expression r limit' levels') index) :=
  children_upTo fun hnext => (h.expression _).mono (HitsLimit.cons hnext)

theorem rawEntry_succ (index : Nat) :
    UpTo (HitsLimit r limit (levels + 1) index) (rawEntry r limit (levels + 1) index)
      (rawEntry r limit' (levels' + 1) index) := by
  rw [rawEntry, rawEntry]
  refine UpTo.blaming (UpTo.same.bind fun _ => ?_) fun he => he.blame_eq index
  exact (h.children index).bind fun _ => .same

theorem expression_succ (index : Nat) :
    UpTo (HitsLimit r limit (levels + 1) index) (Eager.expression r limit (levels + 1) index)
      (Eager.expression r limit' (levels' + 1) index) := by
  rw [Eager.expression, Eager.expression]
  refine UpTo.blaming (UpTo.same.bind fun {head} _ => ?_) fun he => he.blame_eq index
  cases Shape.ofHead head with
  | list => exact (h.children index).bind fun _ => .same
  | generic => exact (h.children index).bind fun _ => .same
  | object =>
    refine entries_bind_collect_upTo fun {next} hnext => ?_
    exact ((h.entry next).mono (HitsLimit.cons hnext)).bind fun _ => .same
  | table =>
    refine entries_bind_collect_upTo fun {next} hnext => ?_
    exact ((h.entry next).mono (HitsLimit.cons hnext)).bind fun _ => .same

end SameUpTo

/-- More levels, and another limit to speak of, change nothing unless the fewer levels are
hit. -/
theorem sameUpTo (r : Regions) (limit limit' : Nat) :
    ∀ {levels levels' : Nat}, levels ≤ levels' → SameUpTo r limit limit' levels levels'
  | 0, _, _ => by
    -- No level is left for the expression that is asked for.
    refine ⟨fun index => ?_, fun index => ?_⟩
    · rw [Eager.expression]
      exact .failed ⟨index, rfl, .nil⟩
    · rw [rawEntry]
      exact .failed ⟨index, rfl, .nil⟩
  | levels + 1, levels' + 1, h =>
    have ih := sameUpTo r limit limit' (Nat.le_of_succ_le_succ h)
    ⟨ih.expression_succ, ih.rawEntry_succ⟩

/-- **A limit is invisible unless it is hit**: with the lower of two limits an expression
either fails because the limit is exceeded, at an expression that a chain of exactly one
reference more than the limit leads to, or decodes to the same outcome as with the higher
one, be it a value or a failure. -/
theorem decodeExpression_hitsLimit_or_eq {maxDepth maxDepth' : Nat} (h : maxDepth ≤ maxDepth')
    (index : Nat) :
    (∃ last, decodeExpression r maxDepth index =
        .error ⟨.depthLimitExceeded maxDepth, some last⟩ ∧ r.Chain (maxDepth + 1) index last) ∨
      decodeExpression r maxDepth index = decodeExpression r maxDepth' index := by
  have hsame := (sameUpTo r maxDepth maxDepth' (Nat.succ_le_succ h)).expression index
  refine hsame.failed_or_eq.imp_left ?_
  rintro ⟨_, ⟨last, rfl, hchain⟩, hfailed⟩
  exact ⟨last, hfailed, hchain⟩

/-- An object whose only entry holds an empty list. -/
def nestedLayout : RawBuffer where
  args := #[1, 2]
  tags := #[5, 5]
  exprs := #[⟨0, 0, 1⟩, ⟨12, 1, 2⟩, ⟨7, 2, 2⟩]
  strings := RawBuffer.textEntry "Object" ++ RawBuffer.textEntry "List" ++ RawBuffer.textEntry "k"

/-- The list is two references below the object, one of them to the entry: a limit of one is
hit at the list, and a limit of two is not felt any more. -/
theorem decodeExpression_hitsLimit_or_eq_nestedLayout :
    (∃ last, decodeExpression nestedLayout.regions 1 0 =
        .error ⟨.depthLimitExceeded 1, some last⟩ ∧ nestedLayout.regions.Chain 2 0 last) ∧
      decodeExpression nestedLayout.regions 2 0 =
        decodeExpression nestedLayout.regions defaultMaxDepth 0 := by
  have hlimited : (decodeExpression nestedLayout.regions 1 0).isOk = false := by decide +kernel
  have hdecoded : (decodeExpression nestedLayout.regions 2 0).isOk = true := by decide +kernel
  constructor
  · refine (decodeExpression_hitsLimit_or_eq (show 1 ≤ 2 by decide) 0).resolve_right fun heq => ?_
    rw [heq, hdecoded] at hlimited
    cases hlimited
  · refine (decodeExpression_hitsLimit_or_eq (show 2 ≤ defaultMaxDepth by decide) 0).resolve_left ?_
    rintro ⟨last, hfailed, -⟩
    rw [hfailed] at hdecoded
    cases hdecoded

end Eager

end FlatTree
