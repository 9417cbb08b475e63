import FlatTree.CommandLine.Help
import FlatTree.CommandLine.Run
import FlatTree.Session.Http
import Std.Async.DNS
import Std.Async.TCP

/-!
# The program

The command line over files, shared memory objects and TCP connections. Results go to standard
output, reports and errors to standard error.
-/

namespace FlatTree.Program

open FlatTree.CommandLine

/-- A reason with its first letter in upper case and the number of the system's error. -/
def numbered (code : UInt32) (details : String) : String :=
  -- Some numbers come with the opposite sign.
  let number := if code < 0x80000000 then code else 0 - code
  s!"{details.capitalize} (os error {number})"

/-- The reason that the system gives for an error. -/
def reason : IO.Error → String
  | .noFileOrDirectory _ code details => numbered code details
  | .permissionDenied _ code details => numbered code details
  | .inappropriateType _ code details => numbered code details
  | .noSuchThing _ code details => numbered code details
  | .invalidArgument _ code details => numbered code details
  | .otherError code details => numbered code details
  | e => toString e

/-- The bytes of a file. -/
def fileBytes (path : String) : IO (Except String ByteArray) := do
  try
    return .ok (← IO.FS.readBinFile path)
  catch e => return .error (reason e)

/-- Where the system keeps shared memory objects. -/
def objectDirectory : String := "/dev/shm"

/-- Reads from a connection until the other side closes it. -/
partial def receiveAll (client : Std.Async.TCP.Socket.Client) (received : ByteArray) :
    Std.Async.Async ByteArray := do
  match ← client.recv? 65536 with
  | some bytes => receiveAll client (received ++ bytes)
  | none => return received

/-- Sends bytes to an address and answers what comes back. -/
def exchange (address : Std.Net.SocketAddress) (message : ByteArray) :
    Std.Async.Async ByteArray := do
  let client ← Std.Async.TCP.Socket.Client.mk
  client.connect address
  client.send message
  receiveAll client .empty

/-- The addresses of a host. -/
def addresses (host : Host) : IO (Array Std.Net.IPAddr) :=
  let name := match host with
    | .ipv6 _ => String.ofList (host.render.toList.filter fun c => c ≠ '[' && c ≠ ']')
    | _ => host.render
  (Std.Async.DNS.getAddrInfo name "").block

/-- A port of an address. -/
def socketAddress (port : UInt16) : Std.Net.IPAddr → Std.Net.SocketAddress
  | .v4 address => .v4 ⟨address, port⟩
  | .v6 address => .v6 ⟨address, port⟩

/-- Carries a command to a service. -/
def carry (service : ServiceUrl) (command : Command) : IO Reply := do
  if service.scheme ≠ "http" then return .unreachable "only http is available"
  try
    let port := (service.port.getD 80).toUInt16
    match (← addresses service.host)[0]? with
    | none => return .unreachable "the host has no address"
    | some address =>
      let message := (Http.request service command).toUTF8
      let received ← (exchange (socketAddress port address) message).block
      return (Http.reply? received.toList).getD (.unreachable "the answer is malformed")
  catch e => return .unreachable (reason e)

/-- A report is shown. Warnings are shown unless all is quiet, the rest only on demand. -/
def shows (verbosity : Verbosity) (level : Level) : Bool :=
  match verbosity with
  | .quiet => false
  | .normal => level = .warn
  | .verbose => level ≠ .debug

/-- The environment of the program. -/
def environment (verbosity : Verbosity) : Environment IO where
  fileBytes := fileBytes
  openObject name := fileBytes (objectDirectory ++ name)
  transport := carry
  print text := IO.print text
  emit event := if shows verbosity event.level then IO.eprintln event.render else pure ()

/-- Tells how a command line ended. -/
def tell : Outcome → IO Unit
  | .success => pure ()
  | .failure chain => IO.eprintln (failureReport chain)
  | .stopped (.help command) => IO.print (helpText command)
  | .stopped .version => IO.print versionText
  | .stopped (.misuse reason) =>
    IO.eprintln s!"error: {reason}\n\nFor more information, try '--help'."

end FlatTree.Program

/-- Runs a command line. -/
def main (words : List String) : IO UInt32 := do
  let outcome ← FlatTree.CommandLine.execute FlatTree.Program.environment words
  FlatTree.Program.tell outcome
  return outcome.exitCode.toUInt32
