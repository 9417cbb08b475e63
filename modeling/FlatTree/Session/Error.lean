import FlatTree.Decode.Error
import FlatTree.Url.Host

/-!
# Session errors

Why a session failed. Nothing is retried: a failed session is started over from the load request.

- `Operation`: the commands of the load service.
- `SessionError`: the causes, with `message` as one line and `chain` as a line per level.
-/

namespace FlatTree

/-- A command of the load service. -/
inductive Operation where
  | load
  | unload
  | erase
  deriving DecidableEq, Repr

/-- The name of a command. -/
def Operation.name : Operation → String
  | load => "load"
  | unload => "unload"
  | erase => "erase"

/-- Why a session failed. -/
inductive SessionError where
  /-- The URL of the service is unusable. -/
  | invalidUrl (url : String) (reason : UrlFault)
  /-- The service refused a command. The body is kept as it was sent. -/
  | remote (operation : Operation) (status : Nat) (body : String)
  /-- The service was not reached, or the connection broke. -/
  | transport (operation : Operation) (reason : String)
  /-- The shared memory region could not be opened or mapped. -/
  | attach (region : String) (reason : String)
  | decode (error : DecodeError)
  deriving DecidableEq, Repr

namespace SessionError

/-- The error as it is printed on one line. -/
def message : SessionError → String
  | invalidUrl url reason => s!"invalid server url {Quoted.quote url}: {reason.message}"
  | remote operation status body => s!"{operation.name} failed with status {status}: {body}"
  | transport operation reason => s!"{operation.name} request failed: {reason}"
  | attach region reason =>
    s!"cannot attach shared memory region {Quoted.quote region}: {reason}"
  | decode e => e.message

/-- The error and what caused it, outermost first. A level that repeats its cause has it as a level
of its own all the same. -/
def chain : SessionError → List String
  | attach region reason => [(attach region reason).message, reason]
  | decode e => e.chain
  | e => [e.message]

end SessionError

end FlatTree
