import FlatTree.Buffer.Layout
import FlatTree.Json.Printer
import FlatTree.Package.Column
import FlatTree.Value.Render
import FlatTree.Value.ToJson

/-!
# Reports

What the commands print.

- `layoutReport`: counts and sizes of a buffer.
- `treeReport`: a decoded tree, as text or as JSON.
- `sumReport`: the sum of a column.
- `failureReport`: an error with what caused it.
-/

namespace FlatTree.CommandLine

/-- A count with its noun. -/
def counted (n : Nat) (noun : String) : String := s!"{n} {noun}" ++ if n = 1 then "" else "s"

/-- Counts and sizes of a buffer, in two lines. -/
def layoutReport (r : Regions) : String :=
  "Header: " ++ counted r.argCount "arg" ++ ", " ++ counted r.exprCount "expression" ++ "\n" ++
    s!"Regions: args={r.args.size} argTypes={r.argTypes.size} exprs={r.exprs.size} " ++
    s!"strings={r.strings.size} (bytes)\n"

/-- A decoded tree. -/
def treeReport (json : Bool) (value : Value) : String :=
  (if json then value.toJson.pretty else value.render) ++ "\n"

/-- A number in a report. -/
def numberText (x : Float) : String := Style.plain.write x.toBits

/-- The sum of a column, the count of its numbers and, if there are any, their mean. -/
def sumReport (column : String) (a : Aggregate) : String :=
  s!"column: {column}\nsum:    {numberText a.sum}\ncount:  {a.count}\n" ++
    match a.mean? with
    | some mean => s!"mean:   {numberText mean}\n"
    | none => ""

/-- An error on one line, outermost first. -/
def failureReport (chain : List String) : String := "error: " ++ ": ".intercalate chain

end FlatTree.CommandLine
