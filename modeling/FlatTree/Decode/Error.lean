import FlatTree.Buffer.Fault
import FlatTree.Value.Basic
import FlatTree.Text.Quoted

/-!
# Decode errors

A decode fails for one cause, and at most one expression is blamed for it: the innermost one in
which the cause arose.

- `Cause`: why a decode failed.
- `DecodeError`: a cause with the blamed expression.
- `DecodeError.blame`: blames an expression unless one is blamed already.
-/

namespace FlatTree

/-- Why the child of an object or a table is no entry. -/
inductive EntryFault where
  | notAnExpression
  | notOneArgument
  deriving DecidableEq, Repr

/-- The reason as it is printed. -/
def EntryFault.message : EntryFault → String
  | notAnExpression => "entry is not an expression"
  | notOneArgument => "entry must have exactly one argument"

/-- Why a decode failed. -/
inductive Cause where
  /-- The bytes break the layout. -/
  | fault (fault : Fault)
  /-- A lookup met no child of that name. -/
  | keyNotFound (key : String)
  | indexOutOfRange (index length : Nat)
  /-- A child of an object or a table breaks the rule for entries. -/
  | malformedShape (shape : Shape) (index : Nat) (reason : EntryFault)
  /-- The value is not of the kind that the caller needs. -/
  | typeMismatch (expected found : String)
  /-- References are cyclic, or nested deeper than allowed. -/
  | depthLimitExceeded (limit : Nat)
  deriving DecidableEq, Repr

/-- The cause as it is printed. -/
def Cause.message : Cause → String
  | fault f => f.message
  | keyNotFound key => s!"key {Quoted.quote key} not found"
  | indexOutOfRange index length =>
    s!"argument index {index} out of range ({length} arguments)"
  | malformedShape shape index reason =>
    s!"malformed {shape.name} at expression {index}: {reason.message}"
  | typeMismatch expected found => s!"expected {expected}, found {found}"
  | depthLimitExceeded limit => s!"expression nesting exceeds depth limit {limit}"

/-- A failed decode. -/
structure DecodeError where
  cause : Cause
  /-- The innermost expression in which the cause arose, if one is known. -/
  blamed : Option Nat
  deriving DecidableEq, Repr

namespace DecodeError

/-- A failure that blames no expression. -/
def ofCause (cause : Cause) : DecodeError := ⟨cause, none⟩

/-- A break of the layout that blames no expression. -/
def ofFault (f : Fault) : DecodeError := ofCause (.fault f)

/-- Blames an expression, unless an inner one is blamed already. -/
def blame (index : Nat) (e : DecodeError) : DecodeError :=
  match e.blamed with
  | some _ => e
  | none => { e with blamed := some index }

/-- The error as it is printed. -/
def message (e : DecodeError) : String :=
  match e.blamed with
  | some index => s!"in expression {index}: {e.cause.message}"
  | none => e.cause.message

/-- The error and what caused it, outermost first. -/
def chain (e : DecodeError) : List String :=
  match e.blamed with
  | some _ => [e.message, e.cause.message]
  | none => [e.message]

end DecodeError

/-- The outcome of decoding. -/
abbrev Decoded (α : Type) := Except DecodeError α

namespace Decoded

/-- A layout read as a decode that blames no expression. -/
def lift {α : Type} (read : Except Fault α) : Decoded α :=
  match read with
  | .ok a => .ok a
  | .error f => .error (.ofFault f)

/-- Blames an expression for a failure, unless an inner one is blamed already. -/
def blaming {α : Type} (index : Nat) (decoded : Decoded α) : Decoded α :=
  match decoded with
  | .ok a => .ok a
  | .error e => .error (e.blame index)

end Decoded

end FlatTree
