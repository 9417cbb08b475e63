import FlatTree.Json.Numeral

/-!
# Tokens of JSON texts

- `Token.pieces?`: the characters of a string up to its closing quote.
- `Token.joinPieces?`: the string, in which two escaped halves make one character.
- `Token.next?`: the first token of a text and what follows it, which is shorter.
- `Token.ofChars?`: all tokens of a text, without the blanks between them.
-/

namespace FlatTree

/-- A token of a JSON text. -/
inductive Token where
  | openArray
  | closeArray
  | openObject
  | closeObject
  | colon
  | comma
  | null
  | bool (value : Bool)
  | number (value : Json.Number)
  | string (text : String)
  deriving DecidableEq, Repr

namespace Token

/-! ## Strings -/

/-- A piece of a string: a character, or a 16-bit unit of one, escaped by its number. -/
inductive Piece where
  | char (c : Char)
  | unit (code : Nat)
  deriving DecidableEq, Repr

/-- The value of a hexadecimal digit of either case. -/
def hexValue? (c : Char) : Option Nat :=
  if '0' ≤ c ∧ c ≤ '9' then some (c.toNat - '0'.toNat)
  else if 'a' ≤ c ∧ c ≤ 'f' then some (c.toNat - 'a'.toNat + 10)
  else if 'A' ≤ c ∧ c ≤ 'F' then some (c.toNat - 'A'.toNat + 10)
  else none

/-- The unit of four hexadecimal digits. -/
def unit? (digits : List Char) : Option Piece :=
  (digits.mapM hexValue?).map fun values => .unit (values.foldl (fun n d => 16 * n + d) 0)

/-- The character that an escape of one letter stands for. -/
def escaped? : Char → Option Char
  | '"' => some '"'
  | '\\' => some '\\'
  | '/' => some '/'
  | 'b' => some '\x08'
  | 'f' => some '\x0c'
  | 'n' => some '\n'
  | 'r' => some '\r'
  | 't' => some '\t'
  | _ => none

/-- The pieces of a string up to its closing quote, and what follows it. A control character must
be escaped. -/
def pieces? : List Char → Option (List Piece × List Char)
  | [] => none
  | '"' :: rest => some ([], rest)
  | '\\' :: 'u' :: a :: b :: c :: d :: rest =>
    match unit? [a, b, c, d], pieces? rest with
    | some unit, some (pieces, after) => some (unit :: pieces, after)
    | _, _ => none
  | '\\' :: letter :: rest =>
    match escaped? letter, pieces? rest with
    | some c, some (pieces, after) => some (.char c :: pieces, after)
    | _, _ => none
  | c :: rest =>
    match pieces? rest with
    | some (pieces, after) => if c < ' ' then none else some (.char c :: pieces, after)
    | none => none

theorem length_lt_of_pieces? {text after : List Char} {pieces : List Piece}
    (h : pieces? text = some (pieces, after)) : after.length < text.length := by
  fun_induction pieces? text generalizing pieces with
  | case1 => cases h
  | case2 rest =>
    cases h
    exact Nat.lt_succ_self _
  | case3 a b c d rest unit ps r hps _ ih =>
    cases h
    have := ih hps
    simp only [List.length_cons]
    omega
  | case4 => cases h
  | case5 letter rest _ c ps r hps _ ih =>
    cases h
    have := ih hps
    simp only [List.length_cons]
    omega
  | case6 => cases h
  | case7 => cases h
  | case8 c rest _ _ _ ps r hps _ ih =>
    cases h
    have := ih hps
    simp only [List.length_cons]
    omega
  | case9 => cases h

/-- The string of pieces. A high unit and a low unit after it make one character; alone they are
none. -/
def joinPieces? : List Piece → Option (List Char)
  | [] => some []
  | .char c :: rest => (joinPieces? rest).map (c :: ·)
  | .unit high :: .unit low :: rest =>
    if 0xD800 ≤ high ∧ high < 0xDC00 then
      if 0xDC00 ≤ low ∧ low < 0xE000 then
        (joinPieces? rest).map
          (Char.ofNat (0x10000 + (high - 0xD800) * 0x400 + (low - 0xDC00)) :: ·)
      else none
    else if 0xDC00 ≤ high ∧ high < 0xE000 then none
    else (joinPieces? (.unit low :: rest)).map (Char.ofNat high :: ·)
  | .unit unit :: rest =>
    if 0xD800 ≤ unit ∧ unit < 0xE000 then none
    else (joinPieces? rest).map (Char.ofNat unit :: ·)

/-- The string token after an opening quote. -/
def string? (text : List Char) : Option (Token × List Char) :=
  match pieces? text with
  | none => none
  | some (pieces, after) => (joinPieces? pieces).map fun cs => (string (String.ofList cs), after)

theorem length_lt_of_string? {text after : List Char} {token : Token}
    (h : string? text = some (token, after)) : after.length < text.length := by
  rw [string?] at h
  split at h
  · cases h
  · next pieces rest hp =>
    obtain ⟨cs, _, hcs⟩ := Option.map_eq_some_iff.mp h
    cases hcs
    exact length_lt_of_pieces? hp

/-! ## Numbers -/

/-- A character that may stand in a number. -/
def isNumberChar (c : Char) : Bool :=
  c.isDigit || c = '+' || c = '-' || c = '.' || c = 'e' || c = 'E'

/-- The number at the front of a text. Two numbers never follow each other, so it may be taken to
reach as far as such characters do. -/
def number? (text : List Char) : Option (Token × List Char) :=
  match Numeral.ofChars? (text.takeWhile isNumberChar) with
  | none => none
  | some numeral =>
    numeral.value?.map fun value => (number value, text.dropWhile isNumberChar)

theorem length_lt_of_number? {c : Char} {rest after : List Char} {token : Token}
    (hc : isNumberChar c = true) (h : number? (c :: rest) = some (token, after)) :
    after.length < (c :: rest).length := by
  rw [number?] at h
  split at h
  · cases h
  · obtain ⟨value, _, hv⟩ := Option.map_eq_some_iff.mp h
    cases hv
    rw [List.dropWhile_cons_of_pos hc]
    exact Nat.lt_succ_of_le (List.dropWhile_sublist _).length_le

/-! ## Texts -/

/-- The first token of a text that starts with none of the blanks, and what follows it. -/
def next? : List Char → Option (Token × List Char)
  | '[' :: rest => some (openArray, rest)
  | ']' :: rest => some (closeArray, rest)
  | '\x7b' :: rest => some (openObject, rest)
  | '\x7d' :: rest => some (closeObject, rest)
  | ':' :: rest => some (colon, rest)
  | ',' :: rest => some (comma, rest)
  | 'n' :: 'u' :: 'l' :: 'l' :: rest => some (null, rest)
  | 't' :: 'r' :: 'u' :: 'e' :: rest => some (bool true, rest)
  | 'f' :: 'a' :: 'l' :: 's' :: 'e' :: rest => some (bool false, rest)
  | '"' :: rest => string? rest
  | c :: rest => if isNumberChar c then number? (c :: rest) else none
  | [] => none

theorem length_lt_of_next? {text after : List Char} {token : Token}
    (h : next? text = some (token, after)) : after.length < text.length := by
  unfold next? at h
  split at h
  · cases h
    simp
  · cases h
    simp
  · cases h
    simp
  · cases h
    simp
  · cases h
    simp
  · cases h
    simp
  · cases h
    simp
    omega
  · cases h
    simp
    omega
  · cases h
    simp
    omega
  · exact Nat.lt_succ_of_lt (length_lt_of_string? h)
  · split at h
    · next hc => exact length_lt_of_number? hc h
    · cases h
  · cases h

/-- The blanks of JSON. -/
def isBlank (c : Char) : Bool := c = ' ' || c = '\n' || c = '\t' || c = '\r'

/-- The tokens of a text. -/
def ofChars? (text : List Char) : Option (List Token) :=
  match text with
  | [] => some []
  | c :: rest =>
    if isBlank c then ofChars? rest
    else
      match _h : next? (c :: rest) with
      | none => none
      | some (token, after) => (ofChars? after).map (token :: ·)
termination_by text.length
decreasing_by
  · exact Nat.lt_succ_self _
  · exact length_lt_of_next? _h

end Token

end FlatTree
