/-!
# Ranges of code points

Properties of characters are kept as tables of ranges, both ends of a range inclusive.

- `Ranges.covers`: a character lies in one of the ranges.
- `Ranges.value?`: what a table says of the range that a character lies in.
-/

namespace FlatTree.Ranges

/-- A character lies in one of the ranges. -/
def covers (ranges : Array (Nat × Nat)) (c : Char) : Bool :=
  ranges.any fun range => range.1 ≤ c.toNat && c.toNat ≤ range.2

/-- What a table says of the first range that a character lies in. -/
def value? {α : Type} (table : Array (Nat × Nat × α)) (c : Char) : Option α :=
  (table.find? fun (first, last, _) => first ≤ c.toNat && c.toNat ≤ last).map
    fun (_, _, value) => value

end FlatTree.Ranges
