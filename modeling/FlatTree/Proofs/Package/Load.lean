import FlatTree.Proofs.Document.Cut
import FlatTree.Proofs.Package.Column

/-!
# Sums of a loaded package

From the files of a directory to the sum of a column: the package is read, its
table takes the place of the name of a file, the document is laid out, and the sum
is taken through a view or from the decoded value. Both are the sum of the numbers
in the fields of the column.

- `Json.TablePath`: the file that has the table of the first resource.
- `Table.HasColumn`: the fields of a column of a table in a text.
- `Package.sums_of_load`: the sums of a package that is loaded.
-/

namespace FlatTree

/-- Adding numbers is adding them to the sum and counting them. -/
theorem Aggregate.addAll_eq (a : Aggregate) (xs : List Float) :
    a.addAll xs = ⟨xs.foldl (· + ·) a.sum, a.count + xs.length⟩ := by
  induction xs generalizing a with
  | nil => rfl
  | cons x rest ih =>
    show (a.add x).addAll rest = _
    rw [ih, Aggregate.add, List.foldl_cons, List.length_cons, Nat.add_assoc, Nat.add_comm 1]

/-! ## A package in JSON -/

/-- An object. -/
def Json.isObject : Json → Bool
  | object _ => true
  | _ => false

/-- The first object among the `resources` of an object has this string under
`path`. -/
def Json.TablePath (json : Json) (name : String) : Prop :=
  ∃ members resources resource, json = object members ∧
    Entries.find? "resources" members = some (array resources) ∧
    resources.find? isObject = some (object resource) ∧
    Entries.find? "path" resource = some (string name)

/-! ## The value of a package -/

section Stands

variable {table : String → Except LoadError (List Column)}

/-- A value is that of the document of a JSON document. -/
def Json.Stands (table : String → Except LoadError (List Column)) (json : Json) (value : Value) :
    Prop :=
  ∃ document, Document.ofJson table json = .ok document ∧ document.value = value

namespace Document

theorem forall₂_itemValues {items : List Json} {documents : List Document}
    (h : ofItems table items = .ok documents) :
    List.Forall₂ (Json.Stands table) items (itemValues documents) := by
  induction items generalizing documents with
  | nil =>
    cases h
    exact .nil
  | cons item rest ih =>
    obtain ⟨document, others, hdocument, hothers, rfl⟩ := ofItems_cons.mp h
    exact .cons ⟨document, hdocument, rfl⟩ (ih hothers)

theorem forall₂_memberValues {members : List (String × Json)}
    {documents : List (String × Document)} (h : ofMembers table members = .ok documents) :
    List.Forall₂ (fun member entry => member.1 = entry.1 ∧ member.2.Stands table entry.2) members
      (memberValues documents) := by
  induction members generalizing documents with
  | nil =>
    cases h
    exact .nil
  | cons member rest ih =>
    obtain ⟨document, others, hdocument, hothers, rfl⟩ := ofMembers_cons.mp h
    exact .cons ⟨rfl, document, hdocument, rfl⟩ (ih hothers)

end Document

namespace Json

variable {value : Value}

/-- Under each key of an object stands the value of the member. -/
theorem Stands.rel_get? {members : List (String × Json)} (h : (object members).Stands table value)
    (key : String) : Option.Rel (Stands table) (Entries.find? key members) (value.get? key) := by
  obtain ⟨document, hdocument, rfl⟩ := h
  rw [Document.ofJson] at hdocument
  obtain ⟨documents, hdocuments, rfl⟩ := map_eq_ok.mp hdocument
  show Option.Rel _ _ (Entries.find? key (Entries.ofFirst (Document.memberValues documents)))
  rw [Entries.find?_ofFirst]
  exact Entries.rel_find? key (Document.forall₂_memberValues hdocuments)

theorem Stands.exists_list {items : List Json} (h : (array items).Stands table value) :
    ∃ values, value = .list values ∧ List.Forall₂ (Stands table) items values := by
  obtain ⟨document, hdocument, rfl⟩ := h
  rw [Document.ofJson] at hdocument
  obtain ⟨documents, hdocuments, rfl⟩ := map_eq_ok.mp hdocument
  exact ⟨_, rfl, Document.forall₂_itemValues hdocuments⟩

/-- Only an object becomes one: a table is none. -/
theorem Stands.isObject_eq {json : Json} (h : json.Stands table value) :
    Package.isObject value = json.isObject := by
  obtain ⟨document, hdocument, rfl⟩ := h
  cases json with
  | null | bool =>
    cases hdocument
    rfl
  | number n =>
    cases hdocument
    cases n <;> rfl
  | string text =>
    rw [Document.ofJson] at hdocument
    split at hdocument
    · obtain ⟨columns, -, rfl⟩ := map_eq_ok.mp hdocument
      rfl
    · cases hdocument
      rfl
  | array items =>
    rw [Document.ofJson] at hdocument
    obtain ⟨documents, -, rfl⟩ := map_eq_ok.mp hdocument
    rfl
  | object members =>
    rw [Document.ofJson] at hdocument
    obtain ⟨documents, -, rfl⟩ := map_eq_ok.mp hdocument
    rfl

theorem rel_find?_isObject {items : List Json} {values : List Value}
    (h : List.Forall₂ (Stands table) items values) :
    Option.Rel (Stands table) (items.find? isObject) (values.find? Package.isObject) := by
  induction h with
  | nil => exact .none
  | @cons item found _ _ hitem _ ih =>
    rw [List.find?_cons, List.find?_cons, hitem.isObject_eq]
    cases item.isObject with
    | true => exact .some hitem
    | false => exact ih

/-- A string that names a table stands for the table. -/
theorem Stands.exists_table {name : String} (hname : Document.namesTable name = true)
    (h : (string name).Stands table value) :
    ∃ columns, table name = .ok columns ∧
      value = .table (Entries.ofFirst (columns.map Column.entry)) := by
  obtain ⟨document, hdocument, rfl⟩ := h
  rw [Document.ofJson, if_pos hname] at hdocument
  obtain ⟨columns, hcolumns, rfl⟩ := map_eq_ok.mp hdocument
  exact ⟨columns, hcolumns, rfl⟩

/-- **The table of the first resource is the one in its file.** -/
theorem Stands.tableValue_eq {json : Json} {name : String} (hpath : json.TablePath name)
    (hname : Document.namesTable name = true) (h : json.Stands table value) :
    ∃ columns, table name = .ok columns ∧
      Package.tableValue value = .ok (.table (Entries.ofFirst (columns.map Column.entry))) := by
  obtain ⟨members, resources, resource, rfl, hresources, hresource, hpath⟩ := hpath
  have hrel := h.rel_get? "resources"
  rw [hresources] at hrel
  obtain ⟨found, hfound, hstands⟩ := exists_of_rel_some_left hrel
  obtain ⟨values, rfl, hvalues⟩ := hstands.exists_list
  have hfirst := rel_find?_isObject hvalues
  rw [hresource] at hfirst
  obtain ⟨first, hfirst, hobject⟩ := exists_of_rel_some_left hfirst
  have hentry := hobject.rel_get? "path"
  rw [hpath] at hentry
  obtain ⟨entry, hentry, hstring⟩ := exists_of_rel_some_left hentry
  obtain ⟨columns, hcolumns, rfl⟩ := hstring.exists_table hname
  refine ⟨columns, hcolumns, ?_⟩
  rw [Package.tableValue, Package.get_eq_ok.mpr hfound, ok_bind, Package.items_eq_ok.mpr rfl,
    ok_bind, hfirst]
  show Package.tableOf first = _
  rw [Package.tableOf, Package.get_eq_ok.mpr hentry]
  rfl

end Json

end Stands

/-! ## The columns of a text -/

/-- Under its first name an entry is found. -/
theorem Entries.find?_of_first {α : Type} {key : String} {value : α} :
    ∀ {entries : List (String × α)} {i : Nat}, entries[i]? = some (key, value) →
      (∀ j < i, ∀ e, entries[j]? = some e → e.1 ≠ key) → Entries.find? key entries = some value
  | [], _, h, _ => by cases h
  | (_, _) :: _, 0, h, _ => by
    cases h
    exact if_pos rfl
  | (k, v) :: rest, i + 1, h, hfirst => by
    have hne : key ≠ k := fun heq => hfirst 0 (Nat.succ_pos i) (k, v) rfl heq.symm
    rw [Entries.find?, if_neg hne]
    exact Entries.find?_of_first h fun j hj e he => hfirst (j + 1) (Nat.succ_lt_succ hj) e he

/-- The table in a text has a column of this name, with these fields. The first
column that is read under the name is meant: a longer heading is read under it too,
if it goes on with a character of code zero. -/
def Table.HasColumn (text name : String) (fields : List (List Char)) : Prop :=
  ∃ header rows i, (Table.lines text).map Table.fields = header :: rows ∧
    header[i]? = some name.toList ∧
    (∀ j < i, ∀ other, header[j]? = some other → Heap.cut (String.ofList other) ≠ name) ∧
    fields = rows.map (Table.field i)

/-- Such a column is found in the table with its texts cut, with the cells of its
fields. -/
theorem Table.HasColumn.find? {text name : String} {fields : List (List Char)}
    (h : Table.HasColumn text name fields) (hname : Heap.Storable name) :
    ∃ columns, Table.columns? text = some columns ∧
      Entries.find? name ((columns.map Column.cut).map Column.entry) =
        some (.list (((Table.cells fields).map Cell.cut).map fun cell => .scalar cell.scalar)) := by
  obtain ⟨header, rows, i, hlines, hheading, hfirst, rfl⟩ := h
  refine ⟨Table.columns header rows, by rw [Table.columns?, hlines], ?_⟩
  have hentry : ∀ j, ((Table.columns header rows).map Column.cut |>.map Column.entry)[j]? =
      header[j]?.map fun heading =>
        (Column.cut ⟨String.ofList heading, Table.cells (rows.map (Table.field j))⟩).entry := by
    intro j
    rw [List.getElem?_map, List.getElem?_map, Table.columns, List.getElem?_mapIdx, Option.map_map,
      Option.map_map]
    rfl
  refine @Entries.find?_of_first _ _ _ _ i ?_ fun j hj e he => ?_
  · rw [hentry, hheading]
    show some (Heap.cut (String.ofList name.toList), _) = _
    rw [String.ofList_toList, hname.cut_eq]
    rfl
  · rw [hentry] at he
    obtain ⟨other, hother, rfl⟩ := Option.map_eq_some_iff.mp he
    exact hfirst j hj other hother

/-! ## From files to sums -/

namespace Document

variable {files : String → Option String} {directory : String}

theorem loadTable_eq_ok {name csv : String} {columns : List Column}
    (hcsv : files (joinPath directory name) = some csv)
    (hcolumns : Table.columns? csv = some columns) :
    loadTable files directory name = .ok columns := by
  rw [loadTable, readFile, hcsv, ok_bind, hcolumns]
  rfl

theorem load_eq {text : String} {json : Json}
    (htext : files (joinPath directory "datapackage.json") = some text)
    (hjson : Json.read? text = some json) :
    load files directory = ofJson (loadTable files directory) json := by
  rw [load, readFile, htext, ok_bind, hjson]

end Document

namespace Package

/-- The package of a directory has a column with these fields: the package is read,
the first object among its resources names a table, and the table has the column.
The heap can hold the keys and strings of the package. -/
def HasColumn (files : String → Option String) (directory column : String)
    (fields : List (List Char)) : Prop :=
  ∃ text json name csv, files (joinPath directory "datapackage.json") = some text ∧
    Json.read? text = some json ∧ json.All Json.Storable ∧ json.TablePath name ∧
    Document.namesTable name = true ∧ files (joinPath directory name) = some csv ∧
    Table.HasColumn csv column fields

/-- The aggregate of numbers that are added from left to right. -/
def sumOf (numbers : List Float) : Aggregate :=
  ⟨numbers.foldl (· + ·) 0.0, numbers.length⟩

/-- In the value of a package, the numbers in the fields of a column are added. -/
theorem sumValue_of_cells {root : Value} {column : String} {columns : List (String × Value)}
    {fields : List (List Char)} {numbers : List Float}
    (htable : tableValue root = .ok (.table (Entries.ofFirst columns)))
    (hcells : Entries.find? column columns =
      some (.list (((Table.cells fields).map Cell.cut).map fun cell => .scalar cell.scalar)))
    (hnumbers : Table.numbers? fields = some numbers) :
    ∃ addends, addendsValue root column = .ok addends ∧
      Aggregate.ofScalars addends = sumOf numbers := by
  have hget : get (.table (Entries.ofFirst columns)) column =
      .ok (.list (((Table.cells fields).map Cell.cut).map fun cell => .scalar cell.scalar)) :=
    get_eq_ok.mpr ((Entries.find?_ofFirst column columns).trans hcells)
  have hscalars : ∀ type ≠ .string, (((Table.cells fields).map Cell.cut).map fun cell =>
      Value.scalar cell.scalar).filterMap (Value.scalarOf? type) =
        Table.scalarsOf type (Table.cells fields) :=
    fun type htype => List.filterMap_map.trans (Table.scalarsOf_map_cut htype _)
  refine ⟨Table.scalarsOf .double (Table.cells fields) ++
    Table.scalarsOf .long (Table.cells fields), ?_, ?_⟩
  · rw [addendsValue, cellsValue, htable, ok_bind, hget, ok_bind, items_eq_ok.mpr rfl, ok_bind,
      hscalars .double (by decide), hscalars .long (by decide)]
    rfl
  · rw [Table.ofScalars_cells hnumbers, Aggregate.addAll_eq, Aggregate.empty, Nat.zero_add, sumOf]

/-- What the value of a document adds, both sums over its buffer add. -/
theorem sums_of_addends {document : Document} {bytes : ByteArray}
    {entries : List (String × Value)} {column : String} {addends : List Scalar}
    (hroot : document.IsContainer) (hbytes : document.toBytes? = some bytes)
    (hsize : FitsMemory bytes) (hlegible : document.tree.Legible .document)
    (hnesting : document.cut.tree.nesting ≤ defaultMaxDepth)
    (hvalue : document.cut.value = .object entries)
    (haddends : addendsValue (.object entries) column = .ok addends) :
    ∃ root, View.root bytes = .ok root ∧
      Eager.decodeBuffer defaultMaxDepth bytes = .ok (.object entries) ∧
      sumView root column = .ok (Aggregate.ofScalars addends) ∧
      sumValue (.object entries) column = .ok (Aggregate.ofScalars addends) := by
  obtain ⟨r, hparse, htree⟩ := Document.unfolds_tree_cut hroot hbytes hsize hlegible
  have hdecode := (Document.decodeBuffer_eq_ok_iff_cut hroot hbytes hsize hnesting).mpr
    ⟨hlegible, hvalue.symm⟩
  have hpromote := Document.promote_tree document.cut
  rw [hvalue] at hpromote
  have hshows : View.Shows ⟨r, 0⟩ document.cut.tree := htree
  have hview := (addendsView_matches hshows).eq_ok_iff.mpr
    ((addendsValue_eq_ok hpromote).mp haddends).2
  refine ⟨⟨r, 0⟩, View.root_eq_ok hparse htree, hdecode, ?_, ?_⟩
  · rw [sumView_eq, hview]
    rfl
  · rw [sumValue_eq, haddends]
    rfl

/-- **From files to sums.** The document of a directory has a buffer, if words can
count it. A column of the table of its first resource, of which all fields that are
written are integers or all are numbers, has one sum, through a view and in the
decoded value: that of its numbers, from left to right, and as many as there are
written fields. An integer below zero counts as the word that it is stored as. The
lengths of all runs have to be read back, so that there is a decoded value. -/
theorem sums_of_load {files : String → Option String} {directory column : String}
    {document : Document} {fields : List (List Char)} {numbers : List Float}
    (hload : Document.load files directory = .ok document)
    (hcolumn : HasColumn files directory column fields) (hname : Heap.Storable column)
    (hnumbers : Table.numbers? fields = some numbers) :
    numbers.length = (Table.written fields).length ∧
      (document.census.slots < 2 ^ 64 → ∃ bytes, document.toBytes? = some bytes) ∧
      ∀ bytes, document.toBytes? = some bytes → FitsMemory bytes →
        document.tree.Legible .document → ∃ root value, View.root bytes = .ok root ∧
          Eager.decodeBuffer defaultMaxDepth bytes = .ok value ∧
          sumView root column = .ok (sumOf numbers) ∧
          sumValue value column = .ok (sumOf numbers) := by
  obtain ⟨text, json, name, csv, htext, hjson, hstorable, hpath, htable, hcsv, hcolumn⟩ := hcolumn
  have hdocument : Document.ofJson (Document.loadTable files directory) json = .ok document :=
    (Document.load_eq htext hjson).symm.trans hload
  have hcut := Document.ofJson_cut hstorable hdocument
  obtain ⟨columns, hread, hcells⟩ := hcolumn.find? hname
  obtain ⟨cutColumns, hcolumns, hvalue⟩ := Json.Stands.tableValue_eq hpath htable ⟨_, hcut, rfl⟩
  rw [Document.cutTable, Document.loadTable_eq_ok hcsv hread] at hcolumns
  cases hcolumns
  obtain ⟨addends, haddends, hsum⟩ := sumValue_of_cells hvalue hcells hnumbers
  obtain ⟨members, rfl⟩ : ∃ members, document = .object members := by
    obtain ⟨members, _, _, rfl, -⟩ := hpath
    rw [Document.ofJson] at hdocument
    obtain ⟨documents, -, rfl⟩ := map_eq_ok.mp hdocument
    exact ⟨documents, rfl⟩
  have hnesting := Document.nesting_le_of_ofJson (Json.sound_of_read? hjson).1 hcut
  have hroot : (Document.object members).IsContainer := trivial
  refine ⟨Table.length_of_numbers? hnumbers, Document.exists_toBytes? hroot,
    fun bytes hbytes hsize hlegible => ?_⟩
  obtain ⟨root, hview, hdecode, hsumView, hsumValue⟩ :=
    sums_of_addends hroot hbytes hsize hlegible hnesting rfl haddends
  rw [hsum] at hsumView hsumValue
  exact ⟨root, _, hview, hdecode, hsumView, hsumValue⟩

/-! ### A sample -/

/-- A package of which the table is in a file. -/
def sampleText : String := "\x7b\"resources\":[\x7b\"path\":\"t.csv\"\x7d]\x7d"

/-- A column of one integer below zero. -/
def sampleTableText : String := "x\n-3\n"

/-- The files of the package. -/
def sampleFiles (path : String) : Option String :=
  if path = "datapackage.json" then some sampleText
  else if path = "t.csv" then some sampleTableText
  else none

/-- The document of the package. -/
def sampleDocument : Document :=
  .object [("resources", .list [.object [("path",
    .table [⟨"x", [.long (UInt64.ofInt (-3))]⟩])]])]

theorem read?_sampleText :
    Json.read? sampleText =
      some (.object [("resources", .array [.object [("path", .string "t.csv")]])]) := by
  have htokens : Token.ofChars? sampleText.toList = some [.openObject, .string "resources",
      .colon, .openArray, .openObject, .string "path", .colon, .string "t.csv", .closeObject,
      .closeArray, .closeObject] := by
    decide +kernel
  rw [Json.read?, htokens]
  rfl

theorem sampleFiles_text : sampleFiles (joinPath "" "datapackage.json") = some sampleText := by
  decide +kernel

theorem sampleFiles_table : sampleFiles (joinPath "" "t.csv") = some sampleTableText := by
  decide +kernel

theorem load_sampleFiles : Document.load sampleFiles "" = .ok sampleDocument := by
  have htable := Document.loadTable_eq_ok sampleFiles_table
    (show Table.columns? sampleTableText = some [⟨"x", [.long (UInt64.ofInt (-3))]⟩] by
      decide +kernel)
  have hname : Document.namesTable "t.csv" = true := by decide
  rw [Document.load_eq sampleFiles_text read?_sampleText]
  simp only [Document.ofJson, Document.ofMembers, Document.ofItems, hname, htable]
  rfl

theorem storable_sampleJson :
    (Json.object [("resources", .array [.object [("path", .string "t.csv")]])]).All
      Json.Storable := by
  have hname : Heap.Storable "t.csv" := by decide
  exact ⟨List.forall_mem_singleton.mpr (by decide), ⟨trivial,
    ⟨List.forall_mem_singleton.mpr (by decide), hname, trivial⟩, trivial⟩, trivial⟩

theorem hasColumn_sampleFiles : HasColumn sampleFiles "" "x" ["-3".toList] :=
  ⟨_, _, "t.csv", _, sampleFiles_text, read?_sampleText, storable_sampleJson,
    ⟨_, _, _, rfl, rfl, rfl, rfl⟩, by decide, sampleFiles_table, ["x".toList], [["-3".toList]], 0,
    by decide +kernel, rfl, nofun, rfl⟩

/-- In the sample, the integer minus three is added as the word it is stored as: the
sum is two to the power of 64. -/
theorem sums_of_load_sample :
    ∃ document bytes root value, Document.load sampleFiles "" = .ok document ∧
      document.toBytes? = some bytes ∧ View.root bytes = .ok root ∧
      Eager.decodeBuffer defaultMaxDepth bytes = .ok value ∧
      sumView root "x" = .ok ⟨18446744073709551616.0, 1⟩ ∧
      sumValue value "x" = .ok ⟨18446744073709551616.0, 1⟩ := by
  have hlegible : sampleDocument.tree.Legible .document :=
    Document.legible_of_slots_lt (by decide)
  have hnumbers : Table.numbers? ["-3".toList] = some [(UInt64.ofInt (-3)).toFloat] := by
    decide +kernel
  have hsum : sumOf [(UInt64.ofInt (-3)).toFloat] = ⟨18446744073709551616.0, 1⟩ := by
    decide +kernel
  obtain ⟨-, hexists, h⟩ := sums_of_load load_sampleFiles hasColumn_sampleFiles (by decide)
    hnumbers
  obtain ⟨bytes, hbytes⟩ := hexists (by decide)
  have hsize : (some bytes).map ByteArray.size = some 370 := by
    rw [← hbytes]
    decide +kernel
  have hmemory : FitsMemory bytes := by
    rw [FitsMemory, show bytes.size = 370 from Option.some.inj hsize]
    decide
  obtain ⟨root, value, hroot, hvalue, hview, hdecoded⟩ := h bytes hbytes hmemory hlegible
  rw [hsum] at hview hdecoded
  exact ⟨_, bytes, root, value, load_sampleFiles, hbytes, hroot, hvalue, hview, hdecoded⟩

end Package

end FlatTree
