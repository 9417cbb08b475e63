/-!
# Slot types

The six types an argument slot can have, and their codes in tag words:

```text
0  Bool         the low byte; anything but zero is true
1  Long         the word itself
2  Double       the bits of a binary64 number
3  String       an offset into the text heap
4  Symbol       an offset into the text heap
5  Expression   an index into the expression table
```
-/

namespace FlatTree

/-- The type of an argument slot. -/
inductive SlotType where
  | bool
  | long
  | double
  | string
  | symbol
  | expression
  deriving DecidableEq, Repr

namespace SlotType

/-- The code of a type in a tag word. -/
def code : SlotType → UInt64
  | bool => 0
  | long => 1
  | double => 2
  | string => 3
  | symbol => 4
  | expression => 5

/-- The type with a given code. -/
def ofCode? (code : UInt64) : Option SlotType :=
  if code = 0 then some bool
  else if code = 1 then some long
  else if code = 2 then some double
  else if code = 3 then some string
  else if code = 4 then some symbol
  else if code = 5 then some expression
  else none

/-- The name of a type. -/
def name : SlotType → String
  | bool => "Bool"
  | long => "Long"
  | double => "Double"
  | string => "String"
  | symbol => "Symbol"
  | expression => "Expression"

/-- All types in the order of their codes. -/
def all : List SlotType := [bool, long, double, string, symbol, expression]

@[simp] theorem ofCode?_code (t : SlotType) : ofCode? t.code = some t := by
  cases t <;> rfl

end SlotType

end FlatTree
