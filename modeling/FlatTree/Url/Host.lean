import FlatTree.Url.Domain
import FlatTree.Url.Percent

/-!
# Hosts

The host of a URL: a domain name, an IPv4 address in any of its spellings, or an IPv6 address
between brackets.

- `UrlFault`: why a text is no URL of a service.
- `Host.parse`: the host of a URL with a known scheme.
- `Host.checkOpaque`: the host of a URL with any other scheme.
- `Host.render`: the normal form.
-/

namespace FlatTree

/-- Why a text is no URL of a service. -/
inductive UrlFault where
  | emptyHost
  | invalidDomainName
  | invalidPort
  | invalidIpv4
  | invalidIpv6
  | invalidDomainCharacter
  | relative
  | wrongScheme
  | hasPath
  deriving DecidableEq, Repr

/-- The reason as it is printed. -/
def UrlFault.message : UrlFault → String
  | emptyHost => "empty host"
  | invalidDomainName => "invalid international domain name"
  | invalidPort => "invalid port number"
  | invalidIpv4 => "invalid IPv4 address"
  | invalidIpv6 => "invalid IPv6 address"
  | invalidDomainCharacter => "invalid domain character"
  | relative => "relative URL without a base"
  | wrongScheme => "scheme must be http or https"
  | hasPath => "must not include a path"

/-- The host of a URL. -/
inductive Host where
  | domain (name : String)
  | ipv4 (address : Nat)
  /-- The eight 16-bit pieces of an address. -/
  | ipv6 (pieces : List Nat)
  deriving DecidableEq, Repr

namespace Host

/-! ## IPv4 -/

/-- The value of digits in a base up to 16. -/
def digitsValue? (base : Nat) (digits : List Char) : Option Nat :=
  digits.foldlM (fun n c => do
    let d ← Percent.hexValue? c
    if d < base then some (n * base + d) else none) 0

/-- A part of an address: hexadecimal after `0x`, octal after `0`, else decimal. -/
def ipv4Number? (part : List Char) : Option Nat :=
  match part with
  | [] => none
  | '0' :: 'x' :: digits => digitsValue? 16 digits
  | '0' :: 'X' :: digits => digitsValue? 16 digits
  | '0' :: d :: digits => digitsValue? 8 (d :: digits)
  | digits => digitsValue? 10 digits

/-- The dotted parts of a name, less an empty last one. -/
def dottedParts (name : List Char) : List (List Char) :=
  let parts := splitOn '.' name
  if parts.getLast? = some [] then parts.dropLast else parts

/-- A name whose last part is a number is meant as an address. -/
def endsInNumber (name : List Char) : Bool :=
  match (dottedParts name).getLast? with
  | none => false
  | some last => (!last.isEmpty && last.all Char.isDigit) || (ipv4Number? last).isSome

/-- The address of at most four parts. Each but the last is a byte; the last fills what is left. -/
def parseIpv4 (name : List Char) : Except UrlFault Nat :=
  let parts := dottedParts name
  match parts.mapM ipv4Number? with
  | none => .error .invalidIpv4
  | some numbers =>
    let leading := numbers.dropLast
    let last := numbers.getLastD 0
    if 4 < parts.length ∨ parts = [] ∨ leading.any (255 < ·) ∨
        Nat.pow 256 (4 - leading.length) ≤ last then
      .error .invalidIpv4
    else
      let high := leading.foldl (fun n part => 256 * n + part) 0
      .ok (high * Nat.pow 256 (4 - leading.length) + last)

/-! ## IPv6 -/

/-- A decimal byte without a leading zero. -/
def decimalByte? (digits : List Char) : Option Nat :=
  match digits with
  | ['0'] => some 0
  | '0' :: _ => none
  | _ =>
    match digits with
    | [] => none
    | _ =>
      match digitsValue? 10 digits with
      | some n => if n ≤ 255 then some n else none
      | none => none

/-- Two pieces from a dotted address of four bytes. -/
def embeddedIpv4? (text : List Char) : Option (List Nat) :=
  match (splitOn '.' text).mapM decimalByte? with
  | some [a, b, c, d] => some [256 * a + b, 256 * c + d]
  | _ => none

/-- A piece of one to four hexadecimal digits. -/
def piece? (digits : List Char) : Option Nat :=
  if digits.isEmpty ∨ 4 < digits.length then none else digitsValue? 16 digits

/-- Pieces between colons, the last two of which may be written as an IPv4 address. -/
def pieces? : List (List Char) → Option (List Nat)
  | [] => some []
  | [last] =>
    if last.contains '.' then embeddedIpv4? last else (piece? last).map fun p => [p]
  | first :: rest => do
    let p ← piece? first
    return p :: (← pieces? rest)

/-- The pieces of one side of a `::`. -/
def side? (text : List Char) : Option (List Nat) :=
  if text.isEmpty then some [] else pieces? (splitOn ':' text)

/-- Splits at the first `::`. -/
def splitDouble : List Char → Option (List Char × List Char)
  | [] => none
  | ':' :: ':' :: rest => some ([], rest)
  | c :: rest => (splitDouble rest).map fun (before, after) => (c :: before, after)

/-- The pieces of an address. One `::` stands for as many zeros as are missing, at least one. -/
def parseIpv6 (text : List Char) : Except UrlFault (List Nat) :=
  match splitDouble text with
  | none =>
    match side? text with
    | some pieces => if pieces.length = 8 then .ok pieces else .error .invalidIpv6
    | none => .error .invalidIpv6
  | some (before, after) =>
    match side? before, side? after with
    | some high, some low =>
      if before.contains '.' ∨ 8 ≤ high.length + low.length then .error .invalidIpv6
      else .ok (high ++ List.replicate (8 - high.length - low.length) 0 ++ low)
    | _, _ => .error .invalidIpv6

/-! ## Any host -/

/-- The part between brackets, if the text starts with one. -/
def bracketed? (text : List Char) : Option (Except UrlFault (List Char)) :=
  match text with
  | '[' :: rest =>
    if rest.getLast? = some ']' then some (.ok rest.dropLast) else some (.error .invalidIpv6)
  | _ => none

/-- The host of a URL with a known scheme. -/
def parse (text : List Char) : Except UrlFault Host :=
  match bracketed? text with
  | some (.error fault) => .error fault
  | some (.ok inner) => (parseIpv6 inner).map ipv6
  | none =>
    match String.fromUTF8? (Percent.decode text).toByteArray with
    | none => .error .invalidDomainName
    | some decoded =>
      match Domain.toAscii? decoded with
      | none => .error .invalidDomainName
      | some name =>
        if name.isEmpty then .error .emptyHost
        else if endsInNumber name.toList then (parseIpv4 name.toList).map ipv4
        else .ok (domain name)

/-- ASCII characters that no host may hold under an unknown scheme. -/
def isOpaqueForbidden (c : Char) : Bool :=
  c = '\x00' || "\t\n\r #/:<>?@[\\]^|".contains c

/-- Checks the host of a URL with an unknown scheme. -/
def checkOpaque (text : List Char) : Except UrlFault Unit :=
  match bracketed? text with
  | some (.error fault) => .error fault
  | some (.ok inner) => (parseIpv6 inner).map fun _ => ()
  | none => if text.any isOpaqueForbidden then .error .invalidDomainCharacter else .ok ()

/-! ## The normal form -/

/-- Length of the stretch of zeros at the front. -/
def leadingZeros (pieces : List Nat) : Nat := (pieces.takeWhile (· = 0)).length

/-- Where the longest stretch of at least two zeros starts, the first of equals, with its length. -/
def longestZeros (pieces : List Nat) : Option (Nat × Nat) :=
  (List.range pieces.length).foldl (fun best start =>
    let length := leadingZeros (pieces.drop start)
    let least := (best.map Prod.snd).getD 1
    if least < length then some (start, length) else best) none

/-- Pieces in lower-case hexadecimal between colons. -/
def hexPieces (pieces : List Nat) : String :=
  ":".intercalate (pieces.map fun p => String.ofList (Nat.toDigits 16 p))

/-- A host as it stands in a URL. -/
def render : Host → String
  | domain name => name
  | ipv4 address =>
    ".".intercalate ([0x1000000, 0x10000, 0x100, 1].map fun unit => toString (address / unit % 256))
  | ipv6 pieces =>
    match longestZeros pieces with
    | none => "[" ++ hexPieces pieces ++ "]"
    | some (start, length) =>
      "[" ++ hexPieces (pieces.take start) ++ "::" ++ hexPieces (pieces.drop (start + length)) ++
        "]"

end Host

end FlatTree
