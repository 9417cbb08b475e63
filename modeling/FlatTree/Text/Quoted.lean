import FlatTree.Text.Mark
import FlatTree.Text.Printable

/-!
# Quoted text

Text between double quotes, as it stands in messages and in rendered values. Quotes, backslashes
and the usual controls have short escapes; any other character that would not show on its own is
written by its code point. The single quote needs no escape.

- `Quoted.escape`: the written form of one character.
- `Quoted.quote`: the written form of a text.
-/

namespace FlatTree.Quoted

/-- Lower-case hexadecimal digits of a number, without leading zeros. -/
def hexDigits (n : Nat) : String := String.ofList (Nat.toDigits 16 n)

/-- The written form of one character. -/
def escape (c : Char) : String :=
  if c = '\x00' then "\\0"
  else if c = '\t' then "\\t"
  else if c = '\r' then "\\r"
  else if c = '\n' then "\\n"
  else if c = '\\' then "\\\\"
  else if c = '"' then "\\\""
  else if Mark.isExtending c || Printable.isUnprintable c then
    "\\u\x7b" ++ hexDigits c.toNat ++ "\x7d"
  else c.toString

/-- A text between double quotes. -/
def quote (text : String) : String :=
  text.foldl (fun out c => out ++ escape c) "\"" ++ "\""

end FlatTree.Quoted
