import FlatTree.Document.Basic
import FlatTree.Number.Reading
import FlatTree.Text.Split

/-!
# Tables in text

The first line of a text names the columns of a table, and every other line is a row. Fields are
separated by commas; there is no quoting. A column holds longs if every field of it that is not
empty is an integer, else doubles if every one is a number, else strings.

- `Table.lines`, `Table.fields`: the lines of a text and the fields of a line.
- `Table.cells`: the cells of a column.
- `Table.columns?`: the table of a text, unless it has no line at all.
-/

namespace FlatTree.Table

/-- A line without the carriage return at its end. -/
def dropReturn (line : List Char) : List Char :=
  if line.getLast? = some '\r' then line.dropLast else line

/-- The lines among the parts between line feeds. What follows the last line feed is a line only if
it is not empty, and it keeps a carriage return. -/
def linesOfParts : List (List Char) → List (List Char)
  | [] => []
  | [last] => if last.isEmpty then [] else [last]
  | part :: rest => dropReturn part :: linesOfParts rest

/-- The lines of a text. -/
def lines (text : String) : List (List Char) := linesOfParts (splitOn '\n' text.toList)

/-- The fields of a line. -/
def fields (line : List Char) : List (List Char) := splitOn ',' line

/-- A cell of an integer. -/
def longCell? (field : List Char) : Option Cell :=
  (Reading.integer? field).map fun n => .long (UInt64.ofInt n)

/-- A cell of a number. -/
def doubleCell? (field : List Char) : Option Cell := (Reading.double? field).map .double

/-- The cell of a field, read by `read?` unless it is empty. -/
def cell? (read? : List Char → Option Cell) (field : List Char) : Option Cell :=
  if field.isEmpty then some .missing else read? field

/-- The cell of a field as it stands. -/
def textCell (field : List Char) : Cell :=
  if field.isEmpty then .missing else .string (String.ofList field)

/-- The cells of the fields of a column. -/
def cells (fields : List (List Char)) : List Cell :=
  match fields.mapM (cell? longCell?) with
  | some cells => cells
  | none =>
    match fields.mapM (cell? doubleCell?) with
    | some cells => cells
    | none => fields.map textCell

/-- The field of a row in column `i`; a short row is filled up with empty fields. -/
def field (i : Nat) (row : List (List Char)) : List Char := row.getD i []

/-- The columns under a header. -/
def columns (header : List (List Char)) (rows : List (List (List Char))) : List Column :=
  header.mapIdx fun i name => ⟨String.ofList name, cells (rows.map (field i))⟩

/-- The table of a text. -/
def columns? (text : String) : Option (List Column) :=
  match (lines text).map fields with
  | [] => none
  | header :: rows => some (columns header rows)

end FlatTree.Table
