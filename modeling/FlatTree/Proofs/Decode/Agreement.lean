import Mathlib.Data.Option.Basic
import Mathlib.Data.List.Forall2
import FlatTree.Proofs.Decode.Outcome

/-!
# Outcomes that agree

Two buffers may number their expressions differently. What is decoded of them is
then compared up to a relation between the numbers: values must be related, and
so must failures, which name expressions too.

- `DecodeError.Agree`: the same failure, at related expressions.
- `Decoded.Agree`: both succeed with related results, or both fail and the
  failures agree. It is kept by everything that a decoder is made of.
-/

namespace FlatTree

variable {R : Nat → Nat → Prop}

/-- Causes of a failure agree if they are the same, or say of related expressions
that they break the rule for entries in the same way. -/
inductive Cause.Agree (R : Nat → Nat → Prop) : Cause → Cause → Prop where
  | same {cause : Cause} : Agree R cause cause
  | malformedShape {shape : Shape} {i j : Nat} {reason : EntryFault} :
    R i j → Agree R (.malformedShape shape i reason) (.malformedShape shape j reason)

/-- Failures agree if their causes do and related expressions are blamed. -/
structure DecodeError.Agree (R : Nat → Nat → Prop) (e e' : DecodeError) : Prop where
  cause : e.cause.Agree R e'.cause
  blamed : Option.Rel R e.blamed e'.blamed

namespace DecodeError.Agree

/-- A cause that blames nothing yet. -/
theorem ofCause {cause cause' : Cause} (h : cause.Agree R cause') :
    Agree R (.ofCause cause) (.ofCause cause') :=
  ⟨h, .none⟩

/-- Blaming related expressions keeps agreement: either both failures blame one
already, or both take the new one. -/
theorem blame {e e' : DecodeError} {i j : Nat} (h : Agree R e e') (hij : R i j) :
    Agree R (e.blame i) (e'.blame j) := by
  obtain ⟨cause, blamed⟩ := e
  obtain ⟨cause', blamed'⟩ := e'
  obtain ⟨hcause, hblamed⟩ := h
  cases hblamed with
  | none => exact ⟨hcause, .some hij⟩
  | some hinner => exact ⟨hcause, .some hinner⟩

end DecodeError.Agree

/-- Outcomes agree: related results, or failures that agree. -/
inductive Decoded.Agree {α β : Type} (R : Nat → Nat → Prop) (S : α → β → Prop) :
    Decoded α → Decoded β → Prop where
  | ok {a : α} {b : β} : S a b → Agree R S (.ok a) (.ok b)
  | error {e e' : DecodeError} : e.Agree R e' → Agree R S (.error e) (.error e')

namespace Decoded.Agree

variable {α β γ δ : Type} {S : α → β → Prop} {T : γ → δ → Prop}

/-- Chains agree link by link. -/
theorem bind {d : Decoded α} {d' : Decoded β} {f : α → Decoded γ} {g : β → Decoded δ}
    (h : Agree R S d d') (hnext : ∀ {a b}, S a b → Agree R T (f a) (g b)) :
    Agree R T (d >>= f) (d' >>= g) := by
  cases h with
  | ok hab => exact hnext hab
  | error he => exact .error he

/-- Where chains that end with a mere wrapping agree, they agreed before it. -/
theorem of_bind_pure {d : Decoded α} {d' : Decoded β} {f : α → γ} {g : β → δ}
    (h : Agree R T (d >>= fun a => pure (f a)) (d' >>= fun b => pure (g b))) :
    Agree R (fun a b => T (f a) (g b)) d d' := by
  cases d with
  | error e =>
    cases d' with
    | error e' =>
      cases h with
      | error he => exact .error he
    | ok b => cases h
  | ok a =>
    cases d' with
    | error e' => cases h
    | ok b =>
      cases h with
      | ok hab => exact .ok hab

theorem blaming {d : Decoded α} {d' : Decoded β} {i j : Nat} (h : Agree R S d d')
    (hij : R i j) : Agree R S (Decoded.blaming i d) (Decoded.blaming j d') := by
  cases h with
  | ok hab => exact .ok hab
  | error he => exact .error (he.blame hij)

/-- Lists are read alike if their members are. -/
theorem mapM {P : α → β → Prop} {f : α → Decoded γ} {g : β → Decoded δ} {as : List α}
    {bs : List β} (h : List.Forall₂ P as bs)
    (hread : ∀ {a b}, P a b → Agree R T (f a) (g b)) :
    Agree R (List.Forall₂ T) (as.mapM f) (bs.mapM g) := by
  induction h with
  | nil =>
    rw [List.mapM_nil, List.mapM_nil]
    exact .ok .nil
  | cons hab _ ih =>
    rw [List.mapM_cons, List.mapM_cons]
    exact (hread hab).bind fun hfirst => ih.bind fun hrest => .ok (.cons hfirst hrest)

theorem mono {S' : α → β → Prop} {d : Decoded α} {d' : Decoded β} (h : Agree R S d d')
    (hmono : ∀ {a b}, S a b → S' a b) : Agree R S' d d' := by
  cases h with
  | ok hab => exact .ok (hmono hab)
  | error he => exact .error he

end Decoded.Agree

end FlatTree
