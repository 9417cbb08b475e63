import FlatTree.Document.Load
import FlatTree.Value.ToJson
import FlatTree.Proofs.Document.RoundTrip
import FlatTree.Proofs.Json.Reader

/-!
# JSON documents read back

A JSON document without tables is loaded, laid out and decoded, and its value is
written as JSON again. The literals travel as symbols, numbers as words, and each
member of an object as an expression of its own; what comes back is the same
document, up to the order of members.

- `Json.Same`: equality up to the order of members.
- `Json.Plain`: no table, and no text or number that a buffer cannot hold.
- `Json.Legible`: the length of each run is read back as two or more.
- `Document.Represents`: what a document has that was made from a JSON document.
- `Document.levels_le_of_ofJson`: nesting costs two levels for each container.
- `Document.legible_tree_iff`: the runs of a document are those of its arrays.
- `Document.same_toJson_decodeBuffer`: the round trip.
- `Document.isShortRun_zeros`: an array that does not come back.
-/

namespace FlatTree

namespace Json

mutual

/-- Two documents are the same if the members of objects are taken as sets. -/
inductive Same : Json → Json → Prop where
  | null : Same .null .null
  | bool {value : Bool} : Same (.bool value) (.bool value)
  | number {value : Number} : Same (.number value) (.number value)
  | string {text : String} : Same (.string text) (.string text)
  | array {items others : List Json} : ItemsSame items others → Same (.array items) (.array others)
  | object {members moved others : List (String × Json)} :
    MembersSame members moved → moved.Perm others → Same (.object members) (.object others)

/-- Items are the same in order. -/
inductive ItemsSame : List Json → List Json → Prop where
  | nil : ItemsSame [] []
  | cons {item other : Json} {items others : List Json} :
    Same item other → ItemsSame items others → ItemsSame (item :: items) (other :: others)

/-- Members have the same keys and the same values in order. -/
inductive MembersSame : List (String × Json) → List (String × Json) → Prop where
  | nil : MembersSame [] []
  | cons {key : String} {member other : Json} {members others : List (String × Json)} :
    Same member other → MembersSame members others →
      MembersSame ((key, member) :: members) ((key, other) :: others)

end

/-- The root is an array or an object. -/
def IsContainer : Json → Prop
  | array _ => True
  | object _ => True
  | _ => False

/-- A buffer can hold a part of a document, and says the same: numbers are words
or finite, texts have no character of code zero, and no text names a table. -/
def Plain : Json → Prop
  | number (.integer value) => 0 ≤ value ∧ value < 2 ^ 64
  | number (.double bits) => Binary64.isNaN bits = false ∧ Binary64.isInfinite bits = false
  | string text => Heap.Storable text ∧ Document.namesTable text = false
  | object members => ∀ member ∈ members, Heap.Storable member.1
  | _ => True

/-- The type of the slot that a part of a document is laid out in. -/
def slotType : Json → SlotType
  | null => .symbol
  | bool _ => .symbol
  | number (.integer _) => .long
  | number (.double _) => .double
  | string _ => .string
  | array _ => .expression
  | object _ => .expression

/-- Where scalar items of one type are a run, half a word says two or more of its length. -/
def Legible : Json → Prop
  | array items => RunPolicy.document.Legible (items.map slotType)
  | _ => True

end Json

namespace Document

/-! ## The document of a JSON document -/

section Levels

variable {table : String → Except LoadError (List Column)}

theorem ofItems_cons {item : Json} {rest : List Json} {documents : List Document} :
    ofItems table (item :: rest) = .ok documents ↔
      ∃ document others, ofJson table item = .ok document ∧ ofItems table rest = .ok others ∧
        documents = document :: others := by
  rw [ofItems, bind_eq_ok]
  simp only [bind_pure_eq_ok, exists_and_left]

theorem ofMembers_cons {key : String} {member : Json} {rest : List (String × Json)}
    {documents : List (String × Document)} :
    ofMembers table ((key, member) :: rest) = .ok documents ↔
      ∃ document others, ofJson table member = .ok document ∧ ofMembers table rest = .ok others ∧
        documents = (key, document) :: others := by
  rw [ofMembers, bind_eq_ok]
  simp only [bind_pure_eq_ok, exists_and_left]

/-! ## Nesting -/

/-- The columns of a table have one level, as cells have none. -/
theorem levelsAll_columns : ∀ columns : List Column,
    Tree.levelsAll (columns.map Column.tree) ≤ 1
  | [] => Nat.zero_le _
  | column :: rest => by
    have hcells : ∀ cells : List Cell,
        Tree.levelsAll (cells.map fun cell => .scalar cell.scalar) = 0 := by
      intro cells
      induction cells with
      | nil => rfl
      | cons cell rest ih =>
        rw [List.map_cons, Tree.levelsAll_cons, ih]
        rfl
    rw [List.map_cons, Tree.levelsAll_cons, Column.tree, Tree.levels_node, hcells]
    exact Nat.max_le.mpr ⟨Nat.le_refl _, levelsAll_columns rest⟩

mutual

/-- A container costs two levels at most, and so does a table. -/
theorem levels_le_of_ofJson :
    ∀ {json : Json} {document : Document}, ofJson table json = .ok document →
      document.tree.levels ≤ 2 * json.depth + 2
  | .null, _, h => by
    cases h
    exact Nat.zero_le _
  | .bool _, _, h => by
    cases h
    exact Nat.zero_le _
  | .number (.integer _), _, h => by
    cases h
    exact Nat.zero_le _
  | .number (.double _), _, h => by
    cases h
    exact Nat.zero_le _
  | .string text, document, h => by
    rw [ofJson] at h
    split at h
    · obtain ⟨columns, -, rfl⟩ := map_eq_ok.mp h
      exact Nat.succ_le_succ (levelsAll_columns columns)
    · cases h
      exact Nat.zero_le _
  | .array items, document, h => by
    rw [ofJson] at h
    obtain ⟨documents, hdocuments, rfl⟩ := map_eq_ok.mp h
    have hitems := levelsAll_le_of_ofItems hdocuments
    rw [tree, Tree.levels_node, Json.depth]
    omega
  | .object members, document, h => by
    rw [ofJson] at h
    obtain ⟨documents, hdocuments, rfl⟩ := map_eq_ok.mp h
    have hmembers := levelsAll_le_of_ofMembers hdocuments
    rw [tree, Tree.levels_node, Json.depth]
    omega

theorem levelsAll_le_of_ofItems :
    ∀ {items : List Json} {documents : List Document}, ofItems table items = .ok documents →
      Tree.levelsAll (itemTrees documents) ≤ 2 * Json.depthItems items + 2
  | [], _, h => by
    cases h
    exact Nat.zero_le _
  | item :: rest, _, h => by
    obtain ⟨document, others, hdocument, hothers, rfl⟩ := ofItems_cons.mp h
    have hitem := levels_le_of_ofJson hdocument
    have hrest := levelsAll_le_of_ofItems hothers
    rw [itemTrees, Tree.levelsAll_cons, Json.depthItems]
    omega

theorem levelsAll_le_of_ofMembers :
    ∀ {members : List (String × Json)} {documents : List (String × Document)},
      ofMembers table members = .ok documents →
        Tree.levelsAll (memberTrees documents) ≤ 2 * Json.depthMembers members + 3
  | [], _, h => by
    cases h
    exact Nat.zero_le _
  | (key, member) :: rest, _, h => by
    obtain ⟨document, others, hdocument, hothers, rfl⟩ := ofMembers_cons.mp h
    have hmember := levels_le_of_ofJson hdocument
    have hrest := levelsAll_le_of_ofMembers hothers
    rw [memberTrees, Tree.levelsAll_cons, Tree.levels_node, Tree.levelsAll_cons,
      Tree.levelsAll_nil, Json.depthMembers]
    omega

end

/-- **A document that is read nests no deeper than the decoder allows**, with its
tables and although an object costs two levels. -/
theorem nesting_le_of_ofJson {json : Json} {document : Document}
    (hdepth : json.depth ≤ Reader.maxDepth) (h : ofJson table json = .ok document) :
    document.tree.nesting ≤ defaultMaxDepth := by
  have hlevels := levels_le_of_ofJson h
  rw [Reader.maxDepth] at hdepth
  rw [Tree.nesting, defaultMaxDepth]
  omega

end Levels

/-! ## What comes back -/

/-- What a document has that was made from a JSON document. -/
structure Represents (json : Json) (document : Document) : Prop where
  storable : document.Storable
  same : json.Same document.value.toJson

/-- The same of items. -/
structure ItemsRepresent (items : List Json) (documents : List Document) : Prop where
  storable : ItemsStorable documents
  same : Json.ItemsSame items (Value.itemsToJson (itemValues documents))

/-- The same of members. -/
structure MembersRepresent (members : List (String × Json))
    (documents : List (String × Document)) : Prop where
  keys : documents.map Prod.fst = members.map Prod.fst
  storable : MembersStorable documents
  same : Json.MembersSame members (Value.entriesToJson (memberValues documents))

/-- A word keeps an integer that is one. -/
theorem same_ofNumber_integer {value : Int} (h : 0 ≤ value ∧ value < 2 ^ 64) :
    Json.Same (.number (.integer value)) (ofNumber (.integer value)).value.toJson := by
  have hword : ((UInt64.ofInt value).toNat : Int) = value := by
    have hlt : (value % 2 ^ 64).toNat < 2 ^ 64 := by omega
    rw [UInt64.ofInt, UInt64.toNat_ofNat_of_lt' hlt]
    omega
  show Json.Same _ (.number (.integer (UInt64.ofInt value).toNat))
  rw [hword]
  exact .number

theorem map_fst_memberValues :
    ∀ members : List (String × Document),
      (memberValues members).map Prod.fst = members.map Prod.fst
  | [] => rfl
  | _ :: rest => congrArg _ (map_fst_memberValues rest)

theorem entriesToJson_eq_map :
    ∀ entries : List (String × Value),
      Value.entriesToJson entries = entries.map fun entry => (entry.1, entry.2.toJson)
  | [] => rfl
  | _ :: rest => congrArg _ (entriesToJson_eq_map rest)

/-- The members of an object come back in the order of their keys. -/
theorem represents_object {members : List (String × Json)} {documents : List (String × Document)}
    (h : MembersRepresent members documents) (hkeys : (members.map Prod.fst).Nodup) :
    Represents (.object members) (object documents) := by
  have hdistinct : ((memberValues documents).map Prod.fst).Nodup := by
    rw [map_fst_memberValues, h.keys]
    exact hkeys
  have hperm := (Entries.perm_ofFirst hdistinct).map fun entry => (entry.1, entry.2.toJson)
  rw [← entriesToJson_eq_map, ← entriesToJson_eq_map] at hperm
  exact ⟨h.storable, .object h.same hperm.symm⟩

section Represents

variable (table : String → Except LoadError (List Column))

mutual

/-- **A document made from a plain JSON document represents it.** -/
theorem exists_represents :
    ∀ {json : Json}, json.All Json.Plain → json.All Json.KeysDistinct →
      ∃ document, ofJson table json = .ok document ∧ Represents json document
  | .null, _, _ => ⟨symbol "Null", rfl, show Heap.Storable "Null" by decide, .null⟩
  | .bool true, _, _ => ⟨symbol "True", rfl, show Heap.Storable "True" by decide, .bool⟩
  | .bool false, _, _ => ⟨symbol "False", rfl, show Heap.Storable "False" by decide, .bool⟩
  | .number (.integer value), hplain, _ => ⟨_, rfl, trivial, same_ofNumber_integer hplain⟩
  | .number (.double bits), ⟨hnan, hinfinite⟩, _ => by
    refine ⟨double bits, rfl, trivial, ?_⟩
    show Json.Same _ (if (Binary64.isNaN bits || Binary64.isInfinite bits) = true then _ else _)
    rw [hnan, hinfinite]
    exact .number
  | .string text, ⟨hstorable, htable⟩, _ => by
    refine ⟨string text, ?_, hstorable, .string⟩
    rw [ofJson, htable]
    rfl
  | .array items, ⟨_, hplain⟩, ⟨_, hdistinct⟩ => by
    obtain ⟨documents, hdocuments, hrepresent⟩ := exists_itemsRepresent hplain hdistinct
    refine ⟨list documents, ?_, hrepresent.storable, .array hrepresent.same⟩
    rw [ofJson, hdocuments]
    rfl
  | .object members, ⟨hnames, hplain⟩, ⟨hkeys, hdistinct⟩ => by
    obtain ⟨documents, hdocuments, hrepresent⟩ := exists_membersRepresent hnames hplain hdistinct
    refine ⟨object documents, ?_, represents_object hrepresent hkeys⟩
    rw [ofJson, hdocuments]
    rfl

theorem exists_itemsRepresent :
    ∀ {items : List Json}, Json.AllItems Json.Plain items → Json.AllItems Json.KeysDistinct items →
      ∃ documents, ofItems table items = .ok documents ∧ ItemsRepresent items documents
  | [], _, _ => ⟨[], rfl, trivial, .nil⟩
  | item :: rest, ⟨hplain, hplains⟩, ⟨hdistinct, hdistincts⟩ => by
    obtain ⟨document, hdocument, hitem⟩ := exists_represents hplain hdistinct
    obtain ⟨documents, hdocuments, hrest⟩ := exists_itemsRepresent hplains hdistincts
    exact ⟨document :: documents, ofItems_cons.mpr ⟨_, _, hdocument, hdocuments, rfl⟩,
      ⟨hitem.storable, hrest.storable⟩, .cons hitem.same hrest.same⟩

theorem exists_membersRepresent :
    ∀ {members : List (String × Json)}, (∀ member ∈ members, Heap.Storable member.1) →
      Json.AllMembers Json.Plain members → Json.AllMembers Json.KeysDistinct members →
      ∃ documents, ofMembers table members = .ok documents ∧ MembersRepresent members documents
  | [], _, _, _ => ⟨[], rfl, rfl, trivial, .nil⟩
  | (key, member) :: rest, hnames, ⟨hplain, hplains⟩, ⟨hdistinct, hdistincts⟩ => by
    obtain ⟨hname, hnames⟩ := List.forall_mem_cons.mp hnames
    obtain ⟨document, hdocument, hmember⟩ := exists_represents hplain hdistinct
    obtain ⟨documents, hdocuments, hrest⟩ := exists_membersRepresent hnames hplains hdistincts
    exact ⟨(key, document) :: documents, ofMembers_cons.mpr ⟨_, _, hdocument, hdocuments, rfl⟩,
      congrArg (key :: ·) hrest.keys, ⟨hname, hmember.storable, hrest.storable⟩,
      .cons hmember.same hrest.same⟩

end

end Represents

theorem isContainer_of_ofJson {table : String → Except LoadError (List Column)} {json : Json}
    {document : Document} (hroot : json.IsContainer) (h : ofJson table json = .ok document) :
    document.IsContainer := by
  cases json with
  | array items =>
    rw [ofJson] at h
    obtain ⟨_, -, rfl⟩ := map_eq_ok.mp h
    trivial
  | object members =>
    rw [ofJson] at h
    obtain ⟨_, -, rfl⟩ := map_eq_ok.mp h
    trivial
  | _ => exact hroot.elim

/-! ## The runs of a JSON document -/

section Runs

variable {table : String → Except LoadError (List Column)}

/-- A part of a document is laid out in a slot of its type. -/
theorem type_tree_of_ofJson {json : Json} {document : Document} (hplain : json.All Json.Plain)
    (h : ofJson table json = .ok document) : document.tree.type = json.slotType := by
  match json, hplain, h with
  | .null, _, h => cases h; rfl
  | .bool value, _, h => cases h; rfl
  | .number (.integer _), _, h => cases h; rfl
  | .number (.double _), _, h => cases h; rfl
  | .string text, ⟨_, hname⟩, h =>
    rw [ofJson, hname] at h
    cases h
    rfl
  | .array items, _, h =>
    rw [ofJson] at h
    obtain ⟨_, -, rfl⟩ := map_eq_ok.mp h
    rfl
  | .object members, _, h =>
    rw [ofJson] at h
    obtain ⟨_, -, rfl⟩ := map_eq_ok.mp h
    rfl

theorem map_type_itemTrees :
    ∀ {items : List Json} {documents : List Document}, Json.AllItems Json.Plain items →
      ofItems table items = .ok documents →
        (itemTrees documents).map Tree.type = items.map Json.slotType
  | [], _, _, h => by
    cases h
    rfl
  | _ :: _, _, ⟨hplain, hplains⟩, h => by
    obtain ⟨_, _, hdocument, hothers, rfl⟩ := ofItems_cons.mp h
    rw [itemTrees, List.map_cons, List.map_cons, type_tree_of_ofJson hplain hdocument,
      map_type_itemTrees hplains hothers]

theorem type_of_mem_memberTrees {type : SlotType} :
    ∀ {members : List (String × Document)}, type ∈ (memberTrees members).map Tree.type →
      type = .expression
  | (_, _) :: rest, h => by
    rcases List.mem_cons.mp h with rfl | h
    · rfl
    · exact type_of_mem_memberTrees h

mutual

/-- **The runs of a plain document are in its arrays**, as the members of an object are
expressions, and each has one argument. -/
theorem legible_tree_iff :
    ∀ {json : Json} {document : Document}, json.All Json.Plain →
      ofJson table json = .ok document →
        (document.tree.Legible .document ↔ json.All Json.Legible)
  | .null, _, _, h => by
    cases h
    exact Iff.rfl
  | .bool _, _, _, h => by
    cases h
    exact Iff.rfl
  | .number (.integer _), _, _, h => by
    cases h
    exact Iff.rfl
  | .number (.double _), _, _, h => by
    cases h
    exact Iff.rfl
  | .string _, _, ⟨_, hname⟩, h => by
    rw [ofJson, hname] at h
    cases h
    exact Iff.rfl
  | .array _, _, ⟨_, hplain⟩, h => by
    rw [ofJson] at h
    obtain ⟨documents, hdocuments, rfl⟩ := map_eq_ok.mp h
    rw [tree, Tree.Legible, map_type_itemTrees hplain hdocuments]
    exact and_congr_right' (allLegible_itemTrees_iff hplain hdocuments)
  | .object _, _, ⟨_, hplain⟩, h => by
    rw [ofJson] at h
    obtain ⟨documents, hdocuments, rfl⟩ := map_eq_ok.mp h
    refine and_congr (iff_of_true ?_ trivial) (allLegible_memberTrees_iff hplain hdocuments)
    exact RunPolicy.legible_of_forall_eq_expression rfl fun _ => type_of_mem_memberTrees

theorem allLegible_itemTrees_iff :
    ∀ {items : List Json} {documents : List Document}, Json.AllItems Json.Plain items →
      ofItems table items = .ok documents →
        (Tree.AllLegible .document (itemTrees documents) ↔ Json.AllItems Json.Legible items)
  | [], _, _, h => by
    cases h
    exact Iff.rfl
  | _ :: _, _, ⟨hplain, hplains⟩, h => by
    obtain ⟨_, _, hdocument, hothers, rfl⟩ := ofItems_cons.mp h
    exact and_congr (legible_tree_iff hplain hdocument)
      (allLegible_itemTrees_iff hplains hothers)

theorem allLegible_memberTrees_iff :
    ∀ {members : List (String × Json)} {documents : List (String × Document)},
      Json.AllMembers Json.Plain members → ofMembers table members = .ok documents →
        (Tree.AllLegible .document (memberTrees documents) ↔
          Json.AllMembers Json.Legible members)
  | [], _, _, h => by
    cases h
    exact Iff.rfl
  | (_, _) :: _, _, ⟨hplain, hplains⟩, h => by
    obtain ⟨document, _, hdocument, hothers, rfl⟩ := ofMembers_cons.mp h
    have hone : RunPolicy.document.Legible ([document.tree].map Tree.type) :=
      RunPolicy.legible_of_length_lt RunPolicy.valid_document (show 1 < 2 ^ 32 by decide)
    refine and_congr ⟨fun hmember => ?_, fun hmember => ⟨hone, ?_, trivial⟩⟩
      (allLegible_memberTrees_iff hplains hothers)
    · exact (legible_tree_iff hplain hdocument).mp hmember.2.1
    · exact (legible_tree_iff hplain hdocument).mpr hmember

end

end Runs

/-! ## The round trip -/

/-- What becomes of a document that represents a JSON document. -/
theorem Represents.decodes_or_isShortRun {table : String → Except LoadError (List Column)}
    {json : Json} {document : Document} {bytes : ByteArray} (h : Represents json document)
    (hroot : json.IsContainer) (hdepth : json.depth ≤ Reader.maxDepth)
    (hplain : json.All Json.Plain) (hdocument : ofJson table json = .ok document)
    (hbytes : document.toBytes? = some bytes) (hsize : FitsMemory bytes) :
    (json.All Json.Legible →
        Eager.decodeBuffer defaultMaxDepth bytes = .ok document.value) ∧
      (¬ json.All Json.Legible →
        ∃ e, Eager.decodeBuffer defaultMaxDepth bytes = .error e ∧ e.IsShortRun) := by
  rw [← legible_tree_iff hplain hdocument]
  have hcut := (storable_tree h.storable).cut_eq
  exact Document.decodes_or_isShortRun (isContainer_of_ofJson hroot hdocument) hbytes hsize
    (hcut.symm ▸ nesting_le_of_ofJson hdepth hdocument) (hcut.symm ▸ promote_tree document)

/-- **A JSON document comes back**, if the lengths of its runs are read back. It becomes a
document, and that is laid out if words can count it, and decoded again: neither its nesting,
which the reader bounds by half of what the decoder allows, nor a literal or a name of a
container in it stands in the way. As JSON, the decoded value is the document, members compared
as sets. A document with another run fails for that, and not for its nesting. -/
theorem same_toJson_decodeBuffer (table : String → Except LoadError (List Column)) {json : Json}
    (hroot : json.IsContainer) (hdepth : json.depth ≤ Reader.maxDepth)
    (hdistinct : json.All Json.KeysDistinct) (hplain : json.All Json.Plain) :
    ∃ document, ofJson table json = .ok document ∧
      (document.census.slots < 2 ^ 64 → ∃ bytes, document.toBytes? = some bytes) ∧
      ∀ bytes, document.toBytes? = some bytes → FitsMemory bytes →
        (json.All Json.Legible → ∃ value,
          Eager.decodeBuffer defaultMaxDepth bytes = .ok value ∧ json.Same value.toJson) ∧
        (¬ json.All Json.Legible → ∃ e,
          Eager.decodeBuffer defaultMaxDepth bytes = .error e ∧ e.IsShortRun) := by
  obtain ⟨document, hdocument, hrepresents⟩ := exists_represents table hplain hdistinct
  refine ⟨document, hdocument, exists_toBytes? (isContainer_of_ofJson hroot hdocument),
    fun bytes hbytes hsize => ?_⟩
  obtain ⟨hdecodes, hfails⟩ :=
    hrepresents.decodes_or_isShortRun hroot hdepth hplain hdocument hbytes hsize
  exact ⟨fun hlegible => ⟨document.value, hdecodes hlegible, hrepresents.same⟩, hfails⟩

/-- Members out of order, literals and a string that looks like one, the greatest
word, and a key that names a container. -/
def sampleJson : Json :=
  .object [
    ("b", .array [.null, .bool true, .string "Null", .number (.integer 18446744073709551615)]),
    ("Table", .object [("a", .number (.double 0))])]

theorem plain_sampleJson : sampleJson.All Json.Plain := by
  refine ⟨?_, ⟨trivial, trivial, trivial, ⟨by decide, by decide⟩, ⟨by omega, by omega⟩, trivial⟩,
    ⟨?_, ⟨by decide, by decide⟩, trivial⟩, trivial⟩
  · show ∀ member ∈ ([_, _] : List (String × Json)), Heap.Storable member.1
    rw [List.forall_mem_cons, List.forall_mem_singleton]
    exact ⟨by decide, by decide⟩
  · show ∀ member ∈ ([_] : List (String × Json)), Heap.Storable member.1
    rw [List.forall_mem_singleton]
    decide

/-- The sample comes back. -/
theorem same_toJson_decodeBuffer_sample :
    ∃ document bytes value,
      ofJson (fun name => .error (.unreadable name)) sampleJson = .ok document ∧
        document.toBytes? = some bytes ∧
        Eager.decodeBuffer defaultMaxDepth bytes = .ok value ∧ sampleJson.Same value.toJson := by
  have hdistinct : sampleJson.All Json.KeysDistinct :=
    ⟨show List.Nodup _ by decide, ⟨trivial, trivial, trivial, trivial, trivial, trivial⟩,
      ⟨show List.Nodup _ by decide, trivial, trivial⟩, trivial⟩
  have hlegible : sampleJson.All Json.Legible :=
    ⟨trivial, ⟨RunPolicy.legible_of_length_lt RunPolicy.valid_document (by decide),
      trivial, trivial, trivial, trivial, trivial⟩, ⟨trivial, trivial, trivial⟩, trivial⟩
  obtain ⟨document, hdocument, hexists, h⟩ := same_toJson_decodeBuffer
    (fun name => .error (.unreadable name)) (show sampleJson.IsContainer from trivial)
    (by decide) hdistinct plain_sampleJson
  have hfound : document = object [
      ("b", list [symbol "Null", symbol "True", string "Null",
        long (UInt64.ofInt 18446744073709551615)]),
      ("Table", object [("a", double 0)])] := by
    cases hdocument
    rfl
  subst hfound
  obtain ⟨bytes, hbytes⟩ := hexists (by decide)
  have hsize : (some bytes).map ByteArray.size = some 396 := by
    rw [← hbytes]
    decide +kernel
  have hfits : FitsMemory bytes := by
    rw [FitsMemory, show bytes.size = 396 from Option.some.inj hsize]
    decide
  obtain ⟨value, hvalue, hsame⟩ := (h bytes hbytes hfits).1 hlegible
  exact ⟨_, bytes, value, hdocument, hbytes, hvalue, hsame⟩

/-! ## A run that is not read back -/

/-- An array of so many zeros. -/
def zeros (n : Nat) : Json := .array (List.replicate n (.number (.integer 0)))

theorem depth_zeros (n : Nat) : (zeros n).depth ≤ 1 :=
  Nat.succ_le_succ (Json.depthItems_le.mpr fun _ hitem => by
    rw [List.eq_of_mem_replicate hitem]
    exact Nat.le_refl _)

theorem all_zeros {p : Json → Prop} {n : Nat} (harray : p (zeros n))
    (hzero : p (.number (.integer 0))) : (zeros n).All p :=
  ⟨harray, Json.allItems_iff.mpr fun _ hitem => by
    rw [List.eq_of_mem_replicate hitem]
    exact hzero⟩

/-- As a run, zeros are one stretch. -/
theorem not_legible_zeros {n : Nat} (hlong : RunPolicy.documentMinimum ≤ n)
    (hshort : n % 2 ^ 32 < 2) : ¬ (zeros n).All Json.Legible := by
  rintro ⟨hlegible, -⟩
  obtain ⟨m, rfl⟩ : ∃ m, n = m + 1 := Nat.exists_eq_succ_of_ne_zero (by
    rintro rfl
    exact absurd hlong (by decide))
  have hlast : ([] : List SlotType).head? ≠ some .long := nofun
  rw [Json.Legible, List.map_replicate, ← List.append_nil (List.replicate _ _)] at hlegible
  have hrun : RunPolicy.document.makesRun SlotType.long.code (m + 1) = true := by
    rw [RunPolicy.makesRun_code]
    exact ⟨⟨_, rfl, hlong⟩, nofun⟩
  obtain ⟨hfirst, -⟩ := (RunPolicy.legible_replicate_append hlast).mp hlegible
  exact absurd (hfirst hrun) (Nat.not_le.mpr hshort)

/-- The document of zeros. -/
def zerosDocument (n : Nat) : Document := list (List.replicate n (long 0))

theorem ofItems_zeros (table : String → Except LoadError (List Column)) :
    ∀ n, ofItems table (List.replicate n (.number (.integer 0))) =
      .ok (List.replicate n (long 0))
  | 0 => rfl
  | n + 1 => by
    rw [List.replicate_succ, List.replicate_succ]
    exact ofItems_cons.mpr ⟨_, _, rfl, ofItems_zeros table n, rfl⟩

theorem itemTrees_replicate (document : Document) :
    ∀ n, itemTrees (List.replicate n document) = List.replicate n document.tree
  | 0 => rfl
  | n + 1 => by
    rw [List.replicate_succ, List.replicate_succ, itemTrees, itemTrees_replicate document n]

theorem sizes_zeros (n : Nat) :
    Tree.sizes (List.replicate n (.scalar (.long 0))) = n ∧
      Tree.allExpressions (List.replicate n (.scalar (.long 0))) = 0 ∧
      (Tree.allSteps (List.replicate n (.scalar (.long 0)))).map Writer.Step.heapSize =
        List.replicate n 0 := by
  induction n with
  | zero => exact ⟨rfl, rfl, rfl⟩
  | succ n ih =>
    obtain ⟨hsizes, hexpressions, hsteps⟩ := ih
    rw [List.replicate_succ, List.replicate_succ, Tree.sizes, Tree.allExpressions, Tree.allSteps,
      List.map_append, hsizes, hexpressions, hsteps]
    exact ⟨Nat.add_comm 1 n, rfl, rfl⟩

theorem ofJson_zeros (table : String → Except LoadError (List Column)) (n : Nat) :
    ofJson table (zeros n) = .ok (zerosDocument n) := by
  rw [zeros, ofJson, ofItems_zeros]
  rfl

theorem tree_zerosDocument (n : Nat) :
    (zerosDocument n).tree = .node "List" (List.replicate n (.scalar (.long 0))) := by
  rw [zerosDocument, tree, itemTrees_replicate]
  rfl

theorem slots_zerosDocument (n : Nat) : (zerosDocument n).census.slots = n + 1 := by
  rw [slots_census, tree_zerosDocument, Tree.size, (sizes_zeros n).1, Nat.add_comm]

/-- The buffer of zeros has a slot for each of them and one for the array, and the array has
a record and its head in the heap. -/
theorem size_zerosDocument {n : Nat} {bytes : ByteArray} (hslots : n + 1 < 2 ^ 64)
    (hbytes : (zerosDocument n).toBytes? = some bytes) : bytes.size = 77 + 16 * n := by
  obtain ⟨-, hexpressions, hsteps⟩ := sizes_zeros n
  have hroot : (zerosDocument n).IsContainer := trivial
  have hcount : (zerosDocument n).census.expressions = 1 := by
    rw [(adds_census _).expressions, tree_zerosDocument, Tree.allExpressions, Tree.expressions,
      hexpressions]
    rfl
  have hheap : ((zerosDocument n).tree.steps.map Writer.Step.heapSize).sum = 5 := by
    rw [tree_zerosDocument, Tree.steps, List.map_append, List.map_cons, hsteps, List.sum_append,
      List.sum_cons, List.sum_replicate_nat, Nat.mul_zero]
    decide +kernel
  rw [size_toBytes? hroot (slots_zerosDocument n ▸ hslots) hbytes, slots_zerosDocument, hcount,
    hheap, headerSize, wordSize, recordSize]
  omega

/-- Zeros that make a run of which the length is not read back have a buffer, and it fails. -/
theorem exists_isShortRun_zeros (table : String → Except LoadError (List Column)) {n : Nat}
    (hlong : RunPolicy.documentMinimum ≤ n) (hshort : n % 2 ^ 32 < 2) (hmemory : n < 2 ^ 59) :
    ∃ document bytes e, ofJson table (zeros n) = .ok document ∧
      document.toBytes? = some bytes ∧ FitsMemory bytes ∧
      Eager.decodeBuffer defaultMaxDepth bytes = .error e ∧ e.IsShortRun := by
  have hplain : (zeros n).All Json.Plain := all_zeros trivial ⟨by decide, by decide⟩
  obtain ⟨document, hdocument, hrepresents⟩ :=
    exists_represents table hplain (all_zeros trivial trivial)
  cases (ofJson_zeros table n).symm.trans hdocument
  have hroot : (zerosDocument n).IsContainer := trivial
  obtain ⟨bytes, hbytes⟩ := exists_toBytes? hroot (by rw [slots_zerosDocument]; omega)
  have hsize : FitsMemory bytes := by
    rw [FitsMemory, size_zerosDocument (by omega) hbytes]
    omega
  have hdepth : (zeros n).depth ≤ Reader.maxDepth := Nat.le_trans (depth_zeros n) (by decide)
  obtain ⟨-, hfails⟩ :=
    hrepresents.decodes_or_isShortRun trivial hdepth hplain hdocument hbytes hsize
  obtain ⟨e, hdecode, he⟩ := hfails (not_legible_zeros hlong hshort)
  exact ⟨_, bytes, e, hdocument, hbytes, hsize, hdecode, he⟩

/-- **Not every array of integers comes back**: half a word says zero of as many integers as it
cannot count. -/
theorem isShortRun_zeros :
    (zeros (2 ^ 32)).IsContainer ∧ (zeros (2 ^ 32)).depth ≤ Reader.maxDepth ∧
      (zeros (2 ^ 32)).All Json.KeysDistinct ∧ (zeros (2 ^ 32)).All Json.Plain ∧
      ∃ document bytes e,
        ofJson (fun name => .error (.unreadable name)) (zeros (2 ^ 32)) = .ok document ∧
          document.toBytes? = some bytes ∧ FitsMemory bytes ∧
          Eager.decodeBuffer defaultMaxDepth bytes = .error e ∧ e.IsShortRun :=
  ⟨trivial, Nat.le_trans (depth_zeros _) (by decide), all_zeros trivial trivial,
    all_zeros trivial ⟨by decide, by decide⟩,
    exists_isShortRun_zeros _ (by decide) (by decide) (by decide)⟩

end Document

end FlatTree
