import FlatTree.Proofs.Document.Table
import FlatTree.Proofs.Text.Split

/-!
# Rows and columns of a table

A text is cut into lines and fields, and its lines may have any number of them. The table that is
read from it has a column for each field of the header, each column has a cell for each row, and
the cells of a column that are not missing are of one type: whatever the rows look like, and
although the type hangs on all of them.

- `Table.Fills`: a row has a field in a column that is not empty.
- `Table.Typed`: what the cells of a column are.
- `Table.ReadAs`: the way in which the fields of a column are read.
- `Table.typed_cells`: the cells of a column are typed.
- `Table.Tabulates`, `Table.exists_tabulates`: the columns of the table of a text.
- `Table.exists_columns?`: only an empty text has none.
-/

namespace FlatTree

/-! ## Integers -/

/-- The word of an integer is its two's complement. -/
theorem toInt64_ofInt (n : Int) : (UInt64.ofInt n).toInt64 = Int64.ofInt n := by
  refine congrArg Int64.ofUInt64 (UInt64.toBitVec_inj.mp (BitVec.eq_of_toNat_eq ?_))
  rw [UInt64.ofInt, UInt64.toBitVec_ofNat', BitVec.toNat_ofNat, BitVec.toNat_ofInt]
  omega

theorem Reading.bounds_of_integer? {text : List Char} {n : Int}
    (h : Reading.integer? text = some n) : -2 ^ 63 ≤ n ∧ n < 2 ^ 63 := by
  rw [Reading.integer?] at h
  generalize Reading.sign text = signed at h
  obtain ⟨negative, digits⟩ := signed
  obtain ⟨m, -, hm⟩ := Option.bind_eq_some_iff.mp h
  rw [Reading.integerBound] at hm
  cases negative with
  | true =>
    obtain ⟨hbound, hn⟩ := Option.ite_none_right_eq_some.mp hm
    cases hn
    omega
  | false =>
    obtain ⟨hbound, hn⟩ := Option.ite_none_right_eq_some.mp hm
    cases hn
    omega

namespace Table

/-! ## What a column is -/

/-- A row has a field in column `i` that is not empty. -/
def Fills (i : Nat) (row : List (List Char)) (field : List Char) : Prop :=
  row[i]? = some field ∧ field ≠ []

/-- All fields that fill column `i` are read. -/
def AllRead {α : Type} (read? : List Char → Option α) (i : Nat) (rows : List (List (List Char))) :
    Prop :=
  ∀ row ∈ rows, ∀ field, Fills i row field → ∃ value, read? field = some value

/-- The cells of column `i` of rows. There is one for each row, it is missing just where the row
ends before or has an empty field, and else it is what the field is read as: an integer, a number
or a text, in the first of these ways in which all fields of the column can be read. The word of
an integer is its two's complement. -/
structure Typed (i : Nat) (rows : List (List (List Char))) (cells : List Cell) : Prop where
  length : cells.length = rows.length
  missing : ∀ (r : Nat) row, rows[r]? = some row →
    (cells[r]? = some .missing ↔ row[i]? = none ∨ row[i]? = some [])
  long : AllRead Reading.integer? i rows →
    ∀ (r : Nat) row field, rows[r]? = some row → Fills i row field →
      ∃ n word, Reading.integer? field = some n ∧ cells[r]? = some (.long word) ∧
        word.toInt64.toInt = n
  double : ¬AllRead Reading.integer? i rows → AllRead Reading.double? i rows →
    ∀ (r : Nat) row field, rows[r]? = some row → Fills i row field →
      ∃ bits, Reading.double? field = some bits ∧ cells[r]? = some (.double bits)
  string : ¬AllRead Reading.integer? i rows → ¬AllRead Reading.double? i rows →
    ∀ (r : Nat) row field, rows[r]? = some row → Fills i row field →
      cells[r]? = some (.string (String.ofList field))

/-! ## How a column is read -/

/-- All fields that are not empty are read. -/
def Readable {α : Type} (read? : List Char → Option α) (fields : List (List Char)) : Prop :=
  ∀ field ∈ fields, field ≠ [] → ∃ value, read? field = some value

theorem readable_map {α β : Type} {read? : List Char → Option α} {f : α → β}
    {fields : List (List Char)} :
    Readable (fun field => (read? field).map f) fields ↔ Readable read? fields := by
  simp [Readable]

/-- A column is read as a whole or not at all. -/
theorem mapM_cell?_cases (read? : List Char → Option Cell) (fields : List (List Char)) :
    (Readable read? fields ∧ ∃ cells, fields.mapM (cell? read?) = some cells) ∨
      (¬Readable read? fields ∧ fields.mapM (cell? read?) = none) := by
  cases hcells : fields.mapM (cell? read?) with
  | none =>
    refine .inr ⟨fun hreadable => ?_, rfl⟩
    obtain ⟨field, hmem, hnone⟩ := exists_of_mapM_eq_none hcells
    rw [cell?] at hnone
    split at hnone
    · cases hnone
    · next hempty =>
      obtain ⟨cell, hcell⟩ := hreadable field hmem fun h => hempty (by rw [h]; rfl)
      rw [hcell] at hnone
      cases hnone
  | some cells =>
    refine .inl ⟨fun field hmem hne => ?_, cells, rfl⟩
    obtain ⟨r, hr⟩ := List.mem_iff_getElem?.mp hmem
    obtain ⟨cell, -, hcell⟩ := exists_getElem?_of_forall₂ (mapM_eq_some.mp hcells) hr
    rw [cell?, if_neg (by simpa using hne)] at hcell
    exact ⟨cell, hcell⟩

/-- A field as a text. -/
def stringCell? (field : List Char) : Option Cell := some (.string (String.ofList field))

/-- How the fields of a column are read: in the first way in which all of them are. -/
inductive ReadAs (fields : List (List Char)) : (List Char → Option Cell) → Prop where
  | long (hlong : Readable Reading.integer? fields) : ReadAs fields longCell?
  | double (hlong : ¬Readable Reading.integer? fields)
      (hdouble : Readable Reading.double? fields) : ReadAs fields doubleCell?
  | string (hlong : ¬Readable Reading.integer? fields)
      (hdouble : ¬Readable Reading.double? fields) : ReadAs fields stringCell?

/-- The cells of a column are those of its fields, all read in one way. -/
theorem exists_readAs (fields : List (List Char)) :
    ∃ read?, ReadAs fields read? ∧
      List.Forall₂ (fun field cell => cell? read? field = some cell) fields (cells fields) := by
  rw [cells]
  rcases mapM_cell?_cases longCell? fields with ⟨hlong, longs, hcells⟩ | ⟨hlong, hcells⟩
  · rw [hcells]
    exact ⟨_, .long (readable_map.mp hlong), mapM_eq_some.mp hcells⟩
  · rw [hcells]
    have hlong : ¬Readable Reading.integer? fields := fun h => hlong (readable_map.mpr h)
    rcases mapM_cell?_cases doubleCell? fields with ⟨hdouble, doubles, hcells⟩ | ⟨hdouble, hcells⟩
    · rw [hcells]
      exact ⟨_, .double hlong (readable_map.mp hdouble), mapM_eq_some.mp hcells⟩
    · rw [hcells]
      refine ⟨_, .string hlong fun h => hdouble (readable_map.mpr h), ?_⟩
      refine List.forall₂_map_right_iff.mpr (List.forall₂_same.mpr fun field _ => ?_)
      rw [cell?, textCell]
      split <;> rfl

/-- What is read of a field that is not empty is not missing. -/
theorem ReadAs.ne_missing {fields : List (List Char)} {read? : List Char → Option Cell}
    (h : ReadAs fields read?) (field : List Char) : read? field ≠ some .missing := by
  cases h with
  | long _ => simp [longCell?]
  | double _ _ => simp [doubleCell?]
  | string _ _ => simp [stringCell?]

/-! ## Columns of rows -/

variable {i : Nat} {row : List (List Char)}

/-- A short row and an empty field come to the same. -/
theorem field_eq_nil : field i row = [] ↔ row[i]? = none ∨ row[i]? = some [] := by
  rw [field, List.getD_eq_getElem?_getD]
  cases row[i]? <;> simp

theorem fills_iff {text : List Char} : Fills i row text ↔ field i row = text ∧ text ≠ [] := by
  refine and_congr_left fun hne => ?_
  rw [field, List.getD_eq_getElem?_getD]
  cases row[i]? with
  | none => simp [hne.symm]
  | some found => simp

theorem readable_fields {α : Type} {read? : List Char → Option α}
    {rows : List (List (List Char))} :
    Readable read? (rows.map (field i)) ↔ AllRead read? i rows := by
  simp [Readable, AllRead, fills_iff]

/-- **The cells of a column are typed.** -/
theorem typed_cells (i : Nat) (rows : List (List (List Char))) :
    Typed i rows (cells (rows.map (field i))) := by
  obtain ⟨read?, hread, hcells⟩ := exists_readAs (rows.map (field i))
  have hcell : ∀ (r : Nat) row, rows[r]? = some row →
      ∃ cell, (cells (rows.map (field i)))[r]? = some cell ∧
        cell? read? (field i row) = some cell := by
    intro r row hrow
    exact exists_getElem?_of_forall₂ hcells (by rw [List.getElem?_map, hrow]; rfl)
  have hfilled : ∀ (r : Nat) row text, rows[r]? = some row → Fills i row text →
      ∃ cell, (cells (rows.map (field i)))[r]? = some cell ∧ read? text = some cell := by
    intro r row text hrow hfills
    obtain ⟨hfield, hne⟩ := fills_iff.mp hfills
    obtain ⟨cell, hcell, hcell?⟩ := hcell r row hrow
    rw [hfield, cell?, if_neg (by simpa using hne)] at hcell?
    exact ⟨cell, hcell, hcell?⟩
  constructor
  case length => rw [← hcells.length_eq, List.length_map]
  case missing =>
    intro r row hrow
    obtain ⟨cell, hcell, hcell?⟩ := hcell r row hrow
    rw [hcell, ← field_eq_nil, Option.some_inj]
    rw [cell?] at hcell?
    split at hcell?
    · next hempty =>
      cases hcell?
      exact iff_of_true rfl (List.isEmpty_iff.mp hempty)
    · next hne =>
      refine iff_of_false ?_ fun hnil => hne (List.isEmpty_iff.mpr hnil)
      rintro rfl
      exact hread.ne_missing _ hcell?
  case long =>
    intro hlong r row text hrow hfills
    obtain ⟨cell, hcell, htext⟩ := hfilled r row text hrow hfills
    cases hread with
    | long _ =>
      obtain ⟨n, hn, rfl⟩ := Option.map_eq_some_iff.mp htext
      obtain ⟨hlower, hupper⟩ := Reading.bounds_of_integer? hn
      refine ⟨n, _, hn, hcell, ?_⟩
      rw [toInt64_ofInt, Int64.toInt_ofInt_of_le hlower hupper]
    | double hnot _ => exact absurd (readable_fields.mpr hlong) hnot
    | string hnot _ => exact absurd (readable_fields.mpr hlong) hnot
  case double =>
    intro hlong hdouble r row text hrow hfills
    obtain ⟨cell, hcell, htext⟩ := hfilled r row text hrow hfills
    cases hread with
    | long hyes => exact absurd (readable_fields.mp hyes) hlong
    | double _ _ =>
      obtain ⟨bits, hbits, rfl⟩ := Option.map_eq_some_iff.mp htext
      exact ⟨bits, hbits, hcell⟩
    | string _ hnot => exact absurd (readable_fields.mpr hdouble) hnot
  case string =>
    intro hlong hdouble r row text hrow hfills
    obtain ⟨cell, hcell, htext⟩ := hfilled r row text hrow hfills
    cases hread with
    | long hyes => exact absurd (readable_fields.mp hyes) hlong
    | double _ hyes => exact absurd (readable_fields.mp hyes) hdouble
    | string _ _ =>
      cases htext
      exact hcell

/-! ## Tables of texts -/

theorem linesOfParts_eq_nil {part : List Char} {parts : List (List Char)} :
    linesOfParts (part :: parts) = [] ↔ part = [] ∧ parts = [] := by
  cases parts with
  | nil =>
    rw [linesOfParts]
    split
    · next hempty => simpa using hempty
    · next hne => simpa using hne
  | cons next rest => simp [linesOfParts]

/-- A text without a line is empty. -/
theorem lines_eq_nil {text : String} : lines text = [] ↔ text = "" := by
  rw [lines, ← String.toList_eq_nil_iff]
  cases text.toList with
  | nil => decide
  | cons c rest =>
    refine iff_of_false (fun hnil => ?_) (List.cons_ne_nil c rest)
    obtain ⟨part, parts, hparts⟩ := exists_splitOn_eq_cons '\n' rest
    rw [splitOn] at hnil
    split at hnil
    · rw [linesOfParts_eq_nil, hparts] at hnil
      exact List.cons_ne_nil part parts hnil.2
    · rw [hparts, linesOfParts_eq_nil] at hnil
      exact List.cons_ne_nil c part hnil.1

/-- The columns of a header over rows: one for each field of the header, in order, with typed
cells. -/
structure Tabulates (header : List (List Char)) (rows : List (List (List Char)))
    (columns : List Column) : Prop where
  names : columns.map Column.name = header.map String.ofList
  typed : ∀ (i : Nat) column, columns[i]? = some column → Typed i rows column.cells

theorem tabulates_columns (header : List (List Char)) (rows : List (List (List Char))) :
    Tabulates header rows (columns header rows) := by
  refine ⟨?_, fun i column hcolumn => ?_⟩
  · refine List.ext_getElem? fun i => ?_
    rw [columns, List.getElem?_map, List.getElem?_mapIdx, List.getElem?_map, Option.map_map]
    rfl
  · rw [columns, List.getElem?_mapIdx] at hcolumn
    obtain ⟨heading, -, rfl⟩ := Option.map_eq_some_iff.mp hcolumn
    exact typed_cells i rows

/-- **The table of a text** has a column for each field of its first line, with a cell for each
of the others. -/
theorem exists_tabulates {text : String} {found : List Column} (h : columns? text = some found) :
    ∃ header rows, (lines text).map fields = header :: rows ∧ Tabulates header rows found := by
  rw [columns?] at h
  split at h
  · cases h
  · next header rows hlines =>
    cases h
    exact ⟨header, rows, hlines, tabulates_columns header rows⟩

/-- A text that is not empty has a table. -/
theorem exists_columns? {text : String} (htext : text ≠ "") :
    ∃ found, columns? text = some found := by
  cases hlines : lines text with
  | nil => exact absurd (lines_eq_nil.mp hlines) htext
  | cons line rest =>
    refine ⟨columns (fields line) (rest.map fields), ?_⟩
    rw [columns?, hlines]
    rfl

end Table

end FlatTree
