/-!
# Punycode

Labels of a domain name in ASCII: first the ASCII characters of the label, then, after a hyphen,
the others in the order of their code points. Each is written as the distance from the insertion
before it, in base 36 with digit thresholds that adapt to the distances seen so far.

- `Punycode.encode`: the encoding of a label.
- `Punycode.decode?`: reads a label back.
-/

namespace FlatTree.Punycode

/-- The threshold of the digit with weight index `k`, between 1 and 26. -/
def threshold (k bias : Nat) : Nat :=
  if k ≤ bias + 1 then 1 else min (k - bias) 26

theorem threshold_le (k bias : Nat) : threshold k bias ≤ 26 := by
  unfold threshold
  split <;> omega

theorem threshold_pos (k bias : Nat) : 0 < threshold k bias := by
  unfold threshold
  split <;> omega

/-- Divides by 35 while the distance is large. Answers the rest and 36 per division. -/
def scale (delta weight : Nat) : Nat × Nat :=
  if 455 < delta then scale (delta / 35) (weight + 36) else (delta, weight)
termination_by delta
decreasing_by omega

/-- The bias after a distance, when `points` characters are placed. -/
def adapt (delta points : Nat) (first : Bool) : Nat :=
  let start := if first then delta / 700 else delta / 2
  let (rest, weight) := scale (start + start / points) 0
  weight + 36 * rest / (rest + 38)

/-- The digit of a number below 36. -/
def digit (n : Nat) : Char := if n < 26 then Char.ofNat (97 + n) else Char.ofNat (22 + n)

/-- The number of a digit of either case. -/
def digitValue? (c : Char) : Option Nat :=
  if 'a' ≤ c ∧ c ≤ 'z' then some (c.toNat - 97)
  else if 'A' ≤ c ∧ c ≤ 'Z' then some (c.toNat - 65)
  else if '0' ≤ c ∧ c ≤ '9' then some (c.toNat - 22)
  else none

/-- The digits of a distance, least weight first. -/
def encodeDistance (bias k distance : Nat) : List Char :=
  let t := threshold k bias
  if distance < t then [digit distance]
  else digit (t + (distance - t) % (36 - t)) ::
    encodeDistance bias (k + 36) ((distance - t) / (36 - t))
termination_by distance
decreasing_by
  have hpos := threshold_pos k bias
  exact Nat.lt_of_le_of_lt (Nat.div_le_self _ _) (by omega)

/-- An encoding under way. -/
structure Encoder where
  out : List Char
  /-- Positions passed since the last insertion. -/
  delta : Nat
  bias : Nat
  /-- Characters placed. -/
  placed : Nat

/-- Passes one character of the label while those of code point `point` are inserted. -/
def Encoder.pass (basic point : Nat) (e : Encoder) (c : Char) : Encoder :=
  if c.toNat < point then { e with delta := e.delta + 1 }
  else if c.toNat = point then
    { out := e.out ++ encodeDistance e.bias 36 e.delta
      delta := 0
      bias := adapt e.delta (e.placed + 1) (e.placed = basic)
      placed := e.placed + 1 }
  else e

/-- Inserts the characters of each code point in turn. `next` is the least one not yet passed. -/
def insertPoints (label : List Char) (basic : Nat) : List Nat → Nat → Encoder → Encoder
  | [], _, e => e
  | point :: rest, next, e =>
    let e := { e with delta := e.delta + (point - next) * (e.placed + 1) }
    let e := label.foldl (Encoder.pass basic point) e
    insertPoints label basic rest (point + 1) { e with delta := e.delta + 1 }

/-- The encoding of a label, without the `xn--` before it. -/
def encode (label : List Char) : List Char :=
  let basic := label.filter fun c => c.toNat < 128
  let points := ((label.filter fun c => 128 ≤ c.toNat).map Char.toNat).mergeSort.eraseDups
  let start := if basic.isEmpty then [] else basic ++ ['-']
  (insertPoints label basic.length points 128 ⟨start, 0, 72, basic.length⟩).out

/-- Positions are counted below this number. -/
def positionLimit : Nat := 0x100000000

/-- The position that a distance leads to from `position`, and the characters after it. Neither the
position nor the weight of a digit may reach the limit. -/
def decodePosition? (bias k weight position : Nat) : List Char → Option (Nat × List Char)
  | [] => none
  | c :: rest =>
    match digitValue? c with
    | none => none
    | some value =>
      let t := threshold k bias
      let position := position + value * weight
      if positionLimit ≤ position then none
      else if value < t then some (position, rest)
      else if positionLimit ≤ weight * (36 - t) then none
      else decodePosition? bias (k + 36) (weight * (36 - t)) position rest

theorem length_lt_of_decodePosition? {bias k weight position p : Nat} {cs rest : List Char}
    (h : decodePosition? bias k weight position cs = some (p, rest)) :
    rest.length < cs.length := by
  induction cs generalizing k weight position with
  | nil => cases h
  | cons c cs ih =>
    rw [decodePosition?] at h
    split at h
    · cases h
    · dsimp only at h
      split at h
      · cases h
      · split at h
        · cases h
          exact Nat.lt_succ_self _
        · split at h
          · cases h
          · exact Nat.lt_succ_of_lt (ih h)

/-- Inserts the characters that the digits describe. -/
def insertDecoded? (label : List Char) (point position bias : Nat) (first : Bool)
    (digits : List Char) : Option (List Char) :=
  match digits with
  | [] => some label
  | c :: cs =>
    match _hd : decodePosition? bias 36 1 position (c :: cs) with
    | none => none
    | some (total, rest) =>
      let points := label.length + 1
      let point := point + total / points
      let place := total % points
      if point < 0x110000 ∧ ¬ (0xD800 ≤ point ∧ point ≤ 0xDFFF) then
        insertDecoded? (label.take place ++ Char.ofNat point :: label.drop place) point
          (place + 1) (adapt (total - position) points first) false rest
      else none
termination_by digits.length
decreasing_by exact length_lt_of_decodePosition? _hd

/-- The label of an encoding without the `xn--` before it. A hyphen with nothing in front of it does
not end the ASCII characters of a label. -/
def decode? (encoded : List Char) : Option (List Char) :=
  let digits := (encoded.reverse.takeWhile (· ≠ '-')).reverse
  let basic := encoded.take (encoded.length - digits.length - 1)
  if basic.isEmpty then insertDecoded? [] 128 0 72 true encoded
  else insertDecoded? basic 128 0 72 true digits

end FlatTree.Punycode
