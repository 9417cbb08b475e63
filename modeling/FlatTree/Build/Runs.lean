import FlatTree.Buffer.Tag

/-!
# Runs of type codes

The tags of an expression's children may be written run by run: a stretch of equal codes that is
long enough becomes one run tag, its length, and codes that nobody reads.

- `RunPolicy`: which stretches become runs.
- `RunPolicy.compress`: the tag words of a list of type codes.
-/

namespace FlatTree

/-- Which stretches of equal type codes become runs. -/
structure RunPolicy where
  /-- The length from which on a stretch becomes a run, at least two; without it none does. -/
  minimum : Option Nat
  /-- Stretches of expressions may become runs too. -/
  expressions : Bool
  deriving DecidableEq, Repr

namespace RunPolicy

/-- The shortest run that a loaded document has. -/
def documentMinimum : Nat := 5

/-- The policy of loaded documents. -/
def document : RunPolicy := ⟨some documentMinimum, false⟩

/-- A stretch of a code becomes a run. -/
def makesRun (policy : RunPolicy) (code : UInt64) (length : Nat) : Bool :=
  match policy.minimum with
  | none => false
  | some minimum =>
    (policy.expressions || code != SlotType.expression.code) && minimum ≤ length

/-- The tag words of a stretch of a code. -/
def stretch (policy : RunPolicy) (code : UInt64) (length : Nat) : List UInt64 :=
  if policy.makesRun code length then
    (code ||| Tag.runBit) :: length.toUInt64 :: List.replicate (length - 2) code
  else
    List.replicate length code

/-- The tag words of a list of type codes, stretch by stretch. -/
def compress (policy : RunPolicy) : List UInt64 → List UInt64
  | [] => []
  | code :: rest =>
    let same := rest.takeWhile (· == code)
    policy.stretch code (same.length + 1) ++ compress policy (rest.drop same.length)
termination_by codes => codes.length
decreasing_by simp only [List.length_cons, List.length_drop]; omega

end RunPolicy

end FlatTree
