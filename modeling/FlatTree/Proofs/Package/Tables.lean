import FlatTree.Proofs.Document.Typed
import FlatTree.Proofs.Package.Load

/-!
# Tables of a loaded package

A string of a JSON document may name a table, in any place. The table is read from its file and
laid out with the document, and in the value that is decoded it stands in the same place: each of
its columns is a list with an item for each row of the file.

- `Selector`, `Json.at?`, `Value.at?`: the parts of a document and of a value.
- `Json.Stands.at?`: they correspond.
- `Table.Rectangular`: a decoded table has as many cells in each column as there are rows.
- `Package.NamesTable`: a place in the package of a directory has the name of a table.
- `Package.rectangular_of_load`: the tables of files, and those that are decoded.
-/

namespace FlatTree

/-! ## Places -/

/-- A step into a document: to the member of a key, or to an item by its number. -/
inductive Selector where
  | key (key : String)
  | index (i : Nat)
  deriving DecidableEq, Repr

/-- The part of a JSON document one step inside. -/
def Json.part? : Json → Selector → Option Json
  | .object members, .key key => Entries.find? key members
  | .array items, .index i => items[i]?
  | _, _ => none

/-- The part of a JSON document in a place. -/
def Json.at? (json : Json) (place : List Selector) : Option Json := place.foldlM Json.part? json

/-- The part of a value one step inside. -/
def Value.part? : Value → Selector → Option Value
  | value, .key key => value.get? key
  | .list items, .index i => items[i]?
  | _, _ => none

/-- The part of a value in a place. -/
def Value.at? (value : Value) (place : List Selector) : Option Value :=
  place.foldlM Value.part? value

namespace Json

variable {table : String → Except LoadError (List Column)} {json part : Json} {value : Value}

/-- What stands for a document has something that stands for each part of it. -/
theorem Stands.part? (h : json.Stands table value) {step : Selector}
    (hpart : json.part? step = some part) :
    ∃ found, value.part? step = some found ∧ part.Stands table found := by
  cases step with
  | key key =>
    cases json with
    | object members =>
      have hrel := h.rel_get? key
      rw [show Entries.find? key members = some part from hpart] at hrel
      obtain ⟨found, hfound, hstands⟩ := exists_of_rel_some_left hrel
      refine ⟨found, ?_, hstands⟩
      rw [Value.part?, hfound]
    | _ => cases hpart
  | index i =>
    cases json with
    | array items =>
      obtain ⟨values, rfl, hvalues⟩ := h.exists_list
      exact exists_getElem?_of_forall₂ hvalues hpart
    | _ => cases hpart

theorem Stands.at? {place : List Selector} (h : json.Stands table value)
    (hpart : json.at? place = some part) :
    ∃ found, value.at? place = some found ∧ part.Stands table found := by
  induction place generalizing json value with
  | nil =>
    cases hpart
    exact ⟨value, rfl, h⟩
  | cons step place ih =>
    rw [Json.at?, List.foldlM_cons] at hpart
    obtain ⟨inner, hinner, hpart⟩ := Option.bind_eq_some_iff.mp hpart
    obtain ⟨found, hfound, hstands⟩ := h.part? hinner
    obtain ⟨last, hlast, hpart⟩ := ih hstands hpart
    refine ⟨last, ?_, hpart⟩
    rw [Value.at?, List.foldlM_cons, hfound]
    exact hlast

/-- A document with a table in it is an expression. -/
theorem isContainer_of_at? {document : Document} {place : List Selector} {name : String}
    (hname : Document.namesTable name = true) (hplace : json.at? place = some (.string name))
    (hdocument : Document.ofJson table json = .ok document) : document.IsContainer := by
  cases place with
  | nil =>
    cases hplace
    rw [Document.ofJson, if_pos hname] at hdocument
    obtain ⟨columns, -, rfl⟩ := map_eq_ok.mp hdocument
    trivial
  | cons step place =>
    rw [Json.at?, List.foldlM_cons] at hplace
    obtain ⟨inner, hinner, -⟩ := Option.bind_eq_some_iff.mp hplace
    refine Document.isContainer_of_ofJson ?_ hdocument
    cases json with
    | array items => trivial
    | object members => trivial
    | _ => cases hinner

end Json

/-! ## Decoded tables -/

/-- The entries of a decoded table: each is a heading with a list of as many cells as there are
rows, and there is one for each heading that the heap can hold. -/
structure Table.Rectangular (header : List (List Char)) (rows : List (List (List Char)))
    (entries : List (String × Value)) : Prop where
  cells : ∀ e ∈ entries, ∃ heading ∈ header, ∃ cells, e.1 = Heap.cut (String.ofList heading) ∧
    e.2 = .list cells ∧ cells.length = rows.length
  headings : ∀ heading ∈ header, Heap.Storable (String.ofList heading) →
    ∃ cells, Entries.find? (String.ofList heading) entries = some (.list cells) ∧
      cells.length = rows.length

/-- With its texts cut, a table has the columns that it had, and as many cells in each. -/
theorem Table.Tabulates.rectangular {header : List (List Char)}
    {rows : List (List (List Char))} {columns : List Column}
    (h : Table.Tabulates header rows columns) :
    Table.Rectangular header rows
      (Entries.ofFirst ((columns.map Column.cut).map Column.entry)) := by
  have hentry : ∀ e ∈ (columns.map Column.cut).map Column.entry, ∃ column ∈ columns,
      e = column.cut.entry ∧ column.cells.length = rows.length := by
    intro e he
    rw [List.map_map] at he
    obtain ⟨column, hcolumn, rfl⟩ := List.mem_map.mp he
    obtain ⟨i, hi⟩ := List.mem_iff_getElem?.mp hcolumn
    exact ⟨column, hcolumn, rfl, (h.typed i column hi).length⟩
  constructor
  case cells =>
    intro e he
    obtain ⟨column, hcolumn, rfl, hlength⟩ := hentry e (Entries.mem_of_mem_ofFirst he)
    have hname : column.name ∈ header.map String.ofList :=
      h.names ▸ List.mem_map.mpr ⟨column, hcolumn, rfl⟩
    obtain ⟨heading, hheading, hname⟩ := List.mem_map.mp hname
    refine ⟨heading, hheading, _, ?_, rfl, ?_⟩
    · rw [hname]
      rfl
    · rw [List.length_map, Column.cut, List.length_map, hlength]
  case headings =>
    intro heading hheading hstorable
    have hname : String.ofList heading ∈ columns.map Column.name :=
      h.names ▸ List.mem_map.mpr ⟨heading, hheading, rfl⟩
    obtain ⟨column, hcolumn, hname⟩ := List.mem_map.mp hname
    have hkey : String.ofList heading ∈
        ((columns.map Column.cut).map Column.entry).map Prod.fst := by
      simp only [List.map_map]
      refine List.mem_map.mpr ⟨column, hcolumn, ?_⟩
      show Heap.cut column.name = _
      rw [hname, hstorable.cut_eq]
    obtain ⟨value, hfind, hmem⟩ := Entries.exists_find? hkey
    obtain ⟨found, -, heq, hlength⟩ := hentry _ hmem
    obtain ⟨-, rfl⟩ := Prod.mk.inj heq
    refine ⟨_, (Entries.find?_ofFirst _ _).trans hfind, ?_⟩
    rw [List.length_map, Column.cut, List.length_map, hlength]

namespace Package

variable {files : String → Option String} {directory : String}

/-- In the package of a directory, the string in a place names a table. The heap can hold the
keys and strings of the package. -/
def NamesTable (files : String → Option String) (directory : String) (place : List Selector)
    (name : String) : Prop :=
  ∃ text json, files (joinPath directory "datapackage.json") = some text ∧
    Json.read? text = some json ∧ json.All Json.Storable ∧
    json.at? place = some (.string name) ∧ Document.namesTable name = true

/-- A table that is loaded is that of its file. -/
theorem exists_file_of_loadTable {name : String} {columns : List Column}
    (h : Document.loadTable files directory name = .ok columns) :
    ∃ text, files (joinPath directory name) = some text ∧ Table.columns? text = some columns := by
  rw [Document.loadTable, Document.readFile] at h
  cases htext : files (joinPath directory name) with
  | none =>
    rw [htext] at h
    cases h
  | some text =>
    rw [htext, ok_bind] at h
    cases hcolumns : Table.columns? text with
    | none =>
      rw [hcolumns] at h
      cases h
    | some found =>
      rw [hcolumns] at h
      cases h
      exact ⟨text, rfl, hcolumns⟩

/-- **Tables are rectangular.** The table of a file that is not empty has a column for each
field of the header, and in it a cell for each row, of one type if it is not missing. Where the
package of a directory names a file, the value that is decoded from its buffer has the table of
the file in the same place, with as many cells in each column as the file has rows. There is such
a value exactly if the lengths of all runs are read back. -/
theorem rectangular_of_load (files : String → Option String) (directory : String) :
    (∀ name text, files (joinPath directory name) = some text → text ≠ "" →
      ∃ header rows columns, (Table.lines text).map Table.fields = header :: rows ∧
        Document.loadTable files directory name = .ok columns ∧
        Table.Tabulates header rows columns) ∧
    ∀ place name document, NamesTable files directory place name →
      Document.load files directory = .ok document →
      ∃ text header rows, files (joinPath directory name) = some text ∧
        (Table.lines text).map Table.fields = header :: rows ∧
        (document.census.slots < 2 ^ 64 → ∃ bytes, document.toBytes? = some bytes) ∧
        ∀ bytes, document.toBytes? = some bytes → FitsMemory bytes →
          ((∃ value, Eager.decodeBuffer defaultMaxDepth bytes = .ok value) ↔
            document.tree.Legible .document) ∧
          ∀ value, Eager.decodeBuffer defaultMaxDepth bytes = .ok value →
            ∃ entries, value.at? place = some (.table entries) ∧
              Table.Rectangular header rows entries := by
  constructor
  · intro name text htext hne
    obtain ⟨columns, hcolumns⟩ := Table.exists_columns? hne
    obtain ⟨header, rows, hlines, htabulates⟩ := Table.exists_tabulates hcolumns
    exact ⟨header, rows, columns, hlines, Document.loadTable_eq_ok htext hcolumns, htabulates⟩
  · intro place name document hnames hload
    obtain ⟨package, json, hpackage, hjson, hstorable, hplace, hname⟩ := hnames
    have hdocument : Document.ofJson (Document.loadTable files directory) json = .ok document :=
      (Document.load_eq hpackage hjson).symm.trans hload
    have hcut := Document.ofJson_cut hstorable hdocument
    obtain ⟨value, hvalue, hstands⟩ := Json.Stands.at? ⟨_, hcut, rfl⟩ hplace
    obtain ⟨cutColumns, hcutColumns, rfl⟩ := hstands.exists_table hname
    obtain ⟨columns, hcolumns, rfl⟩ := map_eq_ok.mp hcutColumns
    obtain ⟨text, htext, hcolumns⟩ := exists_file_of_loadTable hcolumns
    obtain ⟨header, rows, hlines, htabulates⟩ := Table.exists_tabulates hcolumns
    have hroot := Json.isContainer_of_at? hname hplace hdocument
    have hnesting := Document.nesting_le_of_ofJson (Json.sound_of_read? hjson).1 hcut
    refine ⟨text, header, rows, htext, hlines, Document.exists_toBytes? hroot,
      fun bytes hbytes hsize => ?_⟩
    have hdecode := @Document.decodeBuffer_eq_ok_iff_cut _ _ hroot hbytes hsize hnesting
    refine ⟨⟨fun ⟨found, h⟩ => (hdecode.mp h).1, fun h => ⟨_, hdecode.mpr ⟨h, rfl⟩⟩⟩,
      fun found h => ?_⟩
    obtain ⟨-, rfl⟩ := hdecode.mp h
    exact ⟨_, hvalue, htabulates.rectangular⟩

/-! ### A sample -/

/-- Rows that are too short, too long and empty, under two headings. -/
def raggedText : String := "a,b\n1,x\n\n-3\n,,y\n"

/-- The files of a package with that table. -/
def raggedFiles (path : String) : Option String :=
  if path = "datapackage.json" then some sampleText
  else if path = "t.csv" then some raggedText
  else none

/-- The columns of the table. -/
def raggedColumns : List Column :=
  [⟨"a", [.long 1, .missing, .long (UInt64.ofInt (-3)), .missing]⟩,
    ⟨"b", [.string "x", .missing, .missing, .missing]⟩]

/-- The document of the package. -/
def raggedDocument : Document :=
  .object [("resources", .list [.object [("path", .table raggedColumns)]])]

theorem raggedFiles_text : raggedFiles (joinPath "" "datapackage.json") = some sampleText := by
  decide +kernel

theorem raggedFiles_table : raggedFiles (joinPath "" "t.csv") = some raggedText := by
  decide +kernel

theorem load_raggedFiles : Document.load raggedFiles "" = .ok raggedDocument := by
  have htable := Document.loadTable_eq_ok raggedFiles_table
    (show Table.columns? raggedText = some raggedColumns by decide +kernel)
  have hname : Document.namesTable "t.csv" = true := by decide
  rw [Document.load_eq raggedFiles_text read?_sampleText]
  simp only [Document.ofJson, Document.ofMembers, Document.ofItems, hname, htable]
  rfl

theorem namesTable_raggedFiles :
    NamesTable raggedFiles "" [.key "resources", .index 0, .key "path"] "t.csv" :=
  ⟨_, _, raggedFiles_text, read?_sampleText, storable_sampleJson, rfl, by decide⟩

/-- Each column of the sample comes back with four cells. -/
theorem rectangular_of_load_ragged :
    ∃ bytes value entries, raggedDocument.toBytes? = some bytes ∧
      Eager.decodeBuffer defaultMaxDepth bytes = .ok value ∧
      value.at? [.key "resources", .index 0, .key "path"] = some (.table entries) ∧
      Table.Rectangular ["a".toList, "b".toList]
        [["1".toList, "x".toList], [[]], ["-3".toList], [[], [], "y".toList]] entries := by
  obtain ⟨text, header, rows, htext, hlines, hexists, h⟩ :=
    (rectangular_of_load raggedFiles "").2 _ _ _ namesTable_raggedFiles load_raggedFiles
  obtain ⟨bytes, hbytes⟩ := hexists (by decide)
  have hsize : (some bytes).map ByteArray.size = some 566 := by
    rw [← hbytes]
    decide +kernel
  have hmemory : FitsMemory bytes := by
    rw [FitsMemory, show bytes.size = 566 from Option.some.inj hsize]
    decide
  obtain ⟨hlegible, hplaces⟩ := h bytes hbytes hmemory
  obtain ⟨value, hdecode⟩ := hlegible.mpr (Document.legible_of_slots_lt (by decide))
  obtain ⟨entries, hvalue, hrectangular⟩ := hplaces value hdecode
  have hfields : (Table.lines raggedText).map Table.fields = ["a".toList, "b".toList] ::
      [["1".toList, "x".toList], [[]], ["-3".toList], [[], [], "y".toList]] := by
    decide +kernel
  cases raggedFiles_table.symm.trans htext
  cases hfields.symm.trans hlines
  exact ⟨bytes, value, entries, hbytes, hdecode, hvalue, hrectangular⟩

end Package

end FlatTree
