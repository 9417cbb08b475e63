/-!
# Percent encoding

A byte that may not stand as it is becomes `%` and two upper-case hexadecimal digits.

- `Percent.escape`: the three characters of a byte.
- `Percent.encode`: bytes as characters, where `keep` says which bytes stand as they are.
- `Percent.decode`: reads escapes back; anything else stands for its own bytes.
- `Percent.formEncode`, `Percent.formQuery`: the encoding of form fields, in which a space is `+`.
-/

namespace FlatTree.Percent

/-- The upper-case hexadecimal digit of a number below 16. -/
def hexDigit (n : Nat) : Char :=
  if n < 10 then Char.ofNat (48 + n) else Char.ofNat (55 + n)

/-- The number of a hexadecimal digit of either case. -/
def hexValue? (c : Char) : Option Nat :=
  if '0' ≤ c ∧ c ≤ '9' then some (c.toNat - 48)
  else if 'A' ≤ c ∧ c ≤ 'F' then some (c.toNat - 55)
  else if 'a' ≤ c ∧ c ≤ 'f' then some (c.toNat - 87)
  else none

/-- The escape of a byte. -/
def escape (b : UInt8) : List Char :=
  ['%', hexDigit (b.toNat / 16), hexDigit (b.toNat % 16)]

/-- The UTF-8 bytes of a text. -/
def utf8 (text : String) : List UInt8 := text.toUTF8.data.toList

/-- The UTF-8 bytes of a text, escaped unless `keep` holds of them. Only ASCII bytes may be kept. -/
def encode (keep : UInt8 → Bool) (text : String) : List Char :=
  (utf8 text).flatMap fun b => if keep b then [Char.ofNat b.toNat] else escape b

/-- The bytes that an encoded text stands for. -/
def decode : List Char → List UInt8
  | [] => []
  | '%' :: high :: low :: rest =>
    match hexValue? high, hexValue? low with
    | some h, some l => (16 * h + l).toUInt8 :: decode rest
    | _, _ => utf8 "%" ++ decode (high :: low :: rest)
  | c :: rest => utf8 c.toString ++ decode rest

/-- An ASCII letter or digit. -/
def isAlphanumeric (b : UInt8) : Bool :=
  (48 ≤ b && b ≤ 57) || (65 ≤ b && b ≤ 90) || (97 ≤ b && b ≤ 122)

/-! ## Form fields -/

/-- The bytes that stand as they are in a form field: letters, digits and `*-._`. -/
def isFormByte (b : UInt8) : Bool :=
  isAlphanumeric b || b = 42 || b = 45 || b = 46 || b = 95

/-- One byte of a form field. -/
def formByte (b : UInt8) : List Char :=
  if isFormByte b then [Char.ofNat b.toNat] else if b = 32 then ['+'] else escape b

/-- A form field. -/
def formEncode (text : String) : List Char := (utf8 text).flatMap formByte

/-- Named form fields, joined as in a query. -/
def formQuery : List (String × String) → List Char
  | [] => []
  | [(name, value)] => formEncode name ++ '=' :: formEncode value
  | (name, value) :: rest => formEncode name ++ '=' :: (formEncode value ++ '&' :: formQuery rest)

end FlatTree.Percent
