import FlatTree.Session.Control

/-!
# Requests and replies on the wire

A command is sent as a request without a body over a connection that the service closes after its
answer.

- `Http.request`: the text of a request.
- `Http.reply?`: the reply in the bytes of an answer.
-/

namespace FlatTree.Http

/-- The host and, unless it is the default one, the port of a service. -/
def authority (service : ServiceUrl) : String :=
  match service.port with
  | some port => s!"{service.host.render}:{port}"
  | none => service.host.render

/-- The text of a request. -/
def request (service : ServiceUrl) (c : Command) : String :=
  "\r\n".intercalate [c.requestLine, "Host: " ++ authority service, "Accept: */*",
    "Connection: close", "", ""]

/-- Splits an answer after the empty line that ends its head. -/
def splitHead : List UInt8 → Option (List UInt8 × List UInt8)
  | [] => none
  | 13 :: 10 :: 13 :: 10 :: body => some ([], body)
  | b :: rest => (splitHead rest).map fun (head, body) => (b :: head, body)

/-- Bytes as text. Bytes that are no UTF-8 are taken for a character each. -/
def text (bytes : List UInt8) : String :=
  (String.fromUTF8? bytes.toByteArray).getD
    (String.ofList (bytes.map fun b => Char.ofNat b.toNat))

/-- The status in the first line of a head. -/
def status? (line : List Char) : Option Nat :=
  match splitOn ' ' line with
  | _ :: status :: _ => (String.ofList status).toNat?
  | _ => none

/-- The value of a header line with the given name in lower-case letters. -/
def header? (name : String) (line : List Char) : Option String :=
  let key := line.takeWhile (· ≠ ':')
  if (String.ofList key).map Char.toLower = name then
    some (Blank.trim (String.ofList (line.drop (key.length + 1))))
  else none

/-- The reply in the bytes of an answer. A body that is shorter than its declared length is broken
off. -/
def reply? (bytes : List UInt8) : Option Reply := do
  let (head, body) ← splitHead bytes
  let lines := splitOn '\n' ((text head).toList.filter (· ≠ '\r'))
  let status ← status? (lines.headD [])
  match lines.findSome? (header? "content-length") >>= String.toNat? with
  | some length => return .answer status (text (body.take length)) (length ≤ body.length)
  | none => return .answer status (text body) true

end FlatTree.Http
