/-!
# Maps with text keys

A map is the list of its entries, in the order of their keys and with no key twice, so that two
maps with the same keys and values are the same list. Keys are ordered by code point, which is also
the order of their UTF-8 bytes.

- `Entries.insertFirst`: adds an entry unless its key is there already.
- `Entries.insert`: adds an entry and replaces one of the same key.
- `Entries.find?`: the value under a key.
-/

namespace FlatTree

/-- The entries of a map in key order. -/
abbrev Entries (α : Type) := List (String × α)

namespace Entries

variable {α : Type}

/-- Adds an entry; a key that is there already keeps its value. -/
def insertFirst (key : String) (value : α) : Entries α → Entries α
  | [] => [(key, value)]
  | (k, v) :: rest =>
    if key < k then (key, value) :: (k, v) :: rest
    else if key = k then (k, v) :: rest
    else (k, v) :: insertFirst key value rest

/-- Adds an entry; a key that is there already gets the new value. -/
def insert (key : String) (value : α) : Entries α → Entries α
  | [] => [(key, value)]
  | (k, v) :: rest =>
    if key < k then (key, value) :: (k, v) :: rest
    else if key = k then (key, value) :: rest
    else (k, v) :: insert key value rest

/-- The map of a list of entries. The last one of a key wins. -/
def ofList (entries : List (String × α)) : Entries α :=
  entries.foldl (fun map entry => insert entry.1 entry.2 map) []

/-- The value under a key. -/
def find? (key : String) : Entries α → Option α
  | [] => none
  | (k, v) :: rest => if key = k then some v else find? key rest

end Entries

end FlatTree
