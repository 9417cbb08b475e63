import FlatTree.Url.Host

/-!
# URLs of a service

A service is named by the scheme and the authority of a URL; it has no path, and a query or a
fragment is dropped. Spaces and controls around the URL and tabs and line breaks in it do not count,
a backslash is a slash, letters of the scheme and of the domain are lower-cased, and the default
port of the scheme is left out.

- `ServiceUrl.parse`: the service that a text names.
- `ServiceUrl.render`: the normal form, with a path and a query.
-/

namespace FlatTree

/-- The scheme and the authority of a URL. -/
structure ServiceUrl where
  scheme : String
  /-- Percent-encoded, with its `@`, or empty. -/
  userinfo : String
  host : Host
  /-- Unless it is the default port of the scheme. -/
  port : Option Nat
  deriving DecidableEq, Repr

namespace ServiceUrl

/-! ## Pieces of a URL -/

/-- Spaces and controls around a URL and tabs and line breaks in it do not count. -/
def strip (text : String) : List Char :=
  let isBlank (c : Char) : Bool := c ≤ ' '
  let trimmed := ((text.toList.dropWhile isBlank).reverse.dropWhile isBlank).reverse
  trimmed.filter fun c => c ≠ '\t' ∧ c ≠ '\n' ∧ c ≠ '\r'

/-- A character of a scheme after the first. -/
def isSchemeChar (c : Char) : Bool := c.isAlphanum || c = '+' || c = '-' || c = '.'

/-- The lower-cased scheme and the characters after its colon. -/
def scheme? (url : List Char) : Option (String × List Char) :=
  if url.head?.any Char.isAlpha then
    match url.dropWhile isSchemeChar with
    | ':' :: rest => some ((String.ofList (url.takeWhile isSchemeChar)).map Char.toLower, rest)
    | _ => none
  else none

/-- The schemes that the URL standard knows, with their default ports. -/
def defaultPort? (scheme : String) : Option Nat :=
  if scheme = "http" ∨ scheme = "ws" then some 80
  else if scheme = "https" ∨ scheme = "wss" then some 443
  else if scheme = "ftp" then some 21
  else none

/-- Slashes, of which a backslash is one. -/
def isSlash (c : Char) : Bool := c = '/' || c = '\\'

/-- The end of an authority. Backslashes are slashes only under a known scheme. -/
def endsAuthority (known : Bool) (c : Char) : Bool :=
  c = '/' || c = '?' || c = '#' || (known && c = '\\')

/-- Splits an authority at its last `@`. -/
def splitUserinfo (authority : List Char) : Option (List Char) × List Char :=
  if authority.contains '@' then
    let host := (authority.reverse.takeWhile (· ≠ '@')).reverse
    (some (authority.take (authority.length - host.length - 1)), host)
  else (none, authority)

/-- The bytes that stand as they are in a user name or a password. -/
def isUserinfoByte (b : UInt8) : Bool :=
  Percent.isAlphanumeric b || "!$%&'()*+,-._~".toUTF8.data.contains b

/-- User name and password, encoded, and an `@` unless both are empty. -/
def renderUserinfo (info : List Char) : String :=
  let encode (part : List Char) : String :=
    String.ofList (Percent.encode isUserinfoByte (String.ofList part))
  let name := info.takeWhile (· ≠ ':')
  let password := info.drop (name.length + 1)
  if name.isEmpty && password.isEmpty then ""
  else encode name ++ (if password.isEmpty then "" else ":" ++ encode password) ++ "@"

/-- Splits the rest of an authority at the first colon outside brackets. -/
def splitPort (inBrackets : Bool) : List Char → List Char × Option (List Char)
  | [] => ([], none)
  | c :: rest =>
    if c = ':' ∧ !inBrackets then ([], some rest)
    else
      let inside := if c = '[' then true else if c = ']' then false else inBrackets
      let (host, port) := splitPort inside rest
      (c :: host, port)

/-- A port number. No digits mean the default port. -/
def parsePort (digits : List Char) : Except UrlFault (Option Nat) :=
  if digits.isEmpty then .ok none
  else if digits.all Char.isDigit then
    match Host.digitsValue? 10 digits with
    | some port => if port ≤ 65535 then .ok (some port) else .error .invalidPort
    | none => .error .invalidPort
  else .error .invalidPort

/-- A path segment that stands for the directory it is in. -/
def isDot (segment : String) : Bool := segment = "." || segment = "%2e"

/-- A path segment that stands for the directory above. -/
def isDoubleDot (segment : String) : Bool :=
  segment = ".." || segment = ".%2e" || segment = "%2e." || segment = "%2e%2e"

/-- The two characters of a drive, such as `c:`. -/
def isDrive (text : List Char) : Bool :=
  match text with
  | [letter, mark] => letter.isAlpha && (mark = ':' || mark = '|')
  | _ => false

/-- The directory above, which a drive does not have. Segments are listed with the last one first. -/
def parent (kept : List (List Char)) : List (List Char) :=
  if kept.head?.any isDrive then kept else kept.drop 1

/-- Adds path segments to those kept so far, the last one first. A dot segment at the end leaves an
empty segment. -/
def resolve (kept : List (List Char)) : List (List Char) → List (List Char)
  | [] => kept
  | segment :: rest =>
    let text := (String.ofList segment).map Char.toLower
    let ended := if rest.isEmpty then [[]] else []
    if isDoubleDot text then resolve (ended ++ parent kept) rest
    else if isDot text then resolve (ended ++ kept) rest
    else resolve (segment :: kept) rest

/-- A path that consists of one empty segment once its dot segments are resolved. -/
def isRootPath (path : List Char) : Bool :=
  resolve [] (splitOn '/' (path.map fun c => if isSlash c then '/' else c)) = [[]]

/-! ## Whole URLs -/

/-- The user info, the host text and the port of the authority at the start of `rest`, and what
follows it. -/
def authority (known : Bool) (rest : List Char) :
    Except UrlFault (Option (List Char) × List Char × Option (List Char) × List Char) :=
  let text := rest.takeWhile fun c => !endsAuthority known c
  let after := rest.drop text.length
  let (info, hostPort) := splitUserinfo text
  if info = some [] ∧ hostPort.isEmpty ∧ !after.isEmpty then .error .emptyHost
  else
    let (host, port) := splitPort false hostPort
    .ok (info, host, port, after)

/-- Checks the authority of a URL with an unknown scheme. -/
def checkOpaque (rest : List Char) : Except UrlFault Unit :=
  match rest with
  | '/' :: '/' :: rest => do
    let (info, host, port, _) ← authority false rest
    Host.checkOpaque host
    if host.isEmpty ∧ port.isSome then throw .emptyHost
    if let some digits := port then
      let _ ← parsePort (digits.takeWhile (· ≠ '\\'))
    if host.isEmpty ∧ renderUserinfo (info.getD []) ≠ "" then throw .emptyHost
  | _ => .ok ()

/-- Checks the host of a `file` URL. -/
def checkFile (rest : List Char) : Except UrlFault Unit :=
  match rest with
  | a :: b :: rest =>
    let host := rest.takeWhile fun c => !endsAuthority true c
    if isSlash a ∧ isSlash b ∧ !host.isEmpty ∧ !isDrive host then
      (Host.parse host).map fun _ => ()
    else .ok ()
  | _ => .ok ()

/-- The scheme, the authority and the path of a URL with a known scheme. -/
def parseKnown (scheme : String) (rest : List Char) :
    Except UrlFault (ServiceUrl × List Char) := do
  let (info, hostText, portText, after) ← authority true (rest.dropWhile isSlash)
  if hostText.isEmpty then throw .emptyHost
  let host ← Host.parse hostText
  let port ← parsePort (portText.getD [])
  let path := (after.takeWhile fun c => c ≠ '?' ∧ c ≠ '#').drop 1
  return ({
    scheme
    userinfo := renderUserinfo (info.getD [])
    host
    port := if port = defaultPort? scheme then none else port }, path)

/-- The service that a text names. -/
def parse (text : String) : Except UrlFault ServiceUrl := do
  match scheme? (strip text) with
  | none => throw .relative
  | some (scheme, rest) =>
    if scheme = "file" then
      checkFile rest
      throw .wrongScheme
    else if (defaultPort? scheme).isNone then
      checkOpaque rest
      throw .wrongScheme
    else
      let (url, path) ← parseKnown scheme rest
      if scheme ≠ "http" ∧ scheme ≠ "https" then throw .wrongScheme
      if !isRootPath path then throw .hasPath
      return url

/-- The authority as it stands in a URL. -/
def renderAuthority (url : ServiceUrl) : String :=
  url.userinfo ++ url.host.render ++ (url.port.map fun port => s!":{port}").getD ""

/-- The URL of a path below the service, with a query unless it is empty. -/
def render (url : ServiceUrl) (path query : String) : String :=
  let tail := if query.isEmpty then "" else "?" ++ query
  url.scheme ++ "://" ++ url.renderAuthority ++ "/" ++ path ++ tail

end ServiceUrl

end FlatTree
