import FlatTree.Document.Table
import FlatTree.Json.Reader
import FlatTree.Session.Config

/-!
# Loading documents

A document is the file `datapackage.json` of a directory. A string in it that ends in `.csv` names a
file of the directory, and the table in that file takes its place.

- `LoadError`: why a document cannot be loaded.
- `Document.ofJson`: the document of a JSON document, given the tables.
- `Document.load`: the document of a directory.
-/

namespace FlatTree

/-- Why a document cannot be loaded. Each cause names the file. -/
inductive LoadError where
  | unreadable (path : String)
  | notJson (path : String)
  | noHeader (path : String)
  deriving DecidableEq, Repr

/-- The error as it is printed. -/
def LoadError.message : LoadError → String
  | unreadable path => s!"cannot read {path}"
  | notJson path => s!"cannot parse {path}"
  | noHeader path => s!"{path} has no header row"

namespace Document

/-- A string that names a table. -/
def namesTable (text : String) : Bool := ".csv".toList.isSuffixOf text.toList

/-- The word of an integer of 64 bits, in two's complement if it is negative. -/
def ofNumber : Json.Number → Document
  | .integer value => long (UInt64.ofInt value)
  | .double bits => double bits

mutual

/-- The document of a JSON document. The first table that cannot be loaded is the error. -/
def ofJson (table : String → Except LoadError (List Column)) : Json → Except LoadError Document
  | .null => .ok (symbol "Null")
  | .bool value => .ok (symbol (if value then "True" else "False"))
  | .number value => .ok (ofNumber value)
  | .string text => if namesTable text then (table text).map Document.table else .ok (string text)
  | .array items => (ofItems table items).map list
  | .object members => (ofMembers table members).map object

/-- The documents of items. -/
def ofItems (table : String → Except LoadError (List Column)) :
    List Json → Except LoadError (List Document)
  | [] => .ok []
  | item :: rest => do
    let item ← ofJson table item
    return item :: (← ofItems table rest)

/-- The members of an object. -/
def ofMembers (table : String → Except LoadError (List Column)) :
    List (String × Json) → Except LoadError (List (String × Document))
  | [] => .ok []
  | (key, value) :: rest => do
    let value ← ofJson table value
    return (key, value) :: (← ofMembers table rest)

end

/-- The text of a file, where `files` knows the files by their paths. -/
def readFile (files : String → Option String) (path : String) : Except LoadError String :=
  match files path with
  | some text => .ok text
  | none => .error (.unreadable path)

/-- The table in a file. -/
def loadTable (files : String → Option String) (directory name : String) :
    Except LoadError (List Column) := do
  let path := joinPath directory name
  match Table.columns? (← readFile files path) with
  | some columns => return columns
  | none => throw (.noHeader path)

/-- The document of a directory. -/
def load (files : String → Option String) (directory : String) : Except LoadError Document := do
  let path := joinPath directory "datapackage.json"
  match Json.read? (← readFile files path) with
  | some json => ofJson (loadTable files directory) json
  | none => throw (.notJson path)

end Document

end FlatTree
