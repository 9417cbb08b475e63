import FlatTree.Session.Event
import FlatTree.Text.Split
import FlatTree.Url.Service

/-!
# The control plane

A session commands an external service that publishes datasets into shared memory. Each command is
a request without a body, whose parameters stand in the query:

```text
GET /load?name=NAME&path=PATH&loadCSV=true
GET /unload?name=NAME
GET /erase?name=NAME
```

- `ControlPlane`: the commands, in any monad.
- `Command`: a command with its parameters, and its request.
- `Reply`: what comes back, and `Command.outcome`: what it means.
- `Command.send`: a command over a transport.
-/

namespace FlatTree

/-- The commands of a load service. -/
structure ControlPlane (m : Type → Type) where
  /-- Loads the dataset at a path into the region of a name. -/
  load : (name path : String) → (loadCsv : Bool) → m (Except SessionError String)
  /-- Drops the region of a name. -/
  unload : (name : String) → m (Except SessionError String)
  /-- Drops and deletes the region of a name. -/
  erase : (name : String) → m (Except SessionError String)

/-- A command with its parameters. -/
structure Command where
  operation : Operation
  parameters : List (String × String)
  deriving DecidableEq, Repr

/-- What comes back for a request. -/
inductive Reply where
  /-- No connection was made, for the reason that the system gives. -/
  | unreachable (reason : String)
  /-- An answer, whose body may break off before its declared end. -/
  | answer (status : Nat) (body : String) (complete : Bool)
  deriving DecidableEq, Repr

namespace Reply

/-- The longest body that is read as text, in bytes. -/
def bodyLimit : Nat := 10 * 1024 * 1024

/-- The text of a body, or why it cannot be read. Answers of status 204 and 304 have none. -/
def readBody (status : Nat) (body : String) (complete : Bool) : Except String String :=
  if status = 204 ∨ status = 304 then .ok ""
  else if bodyLimit < body.utf8ByteSize then .error "response too big for into_string"
  else if complete then .ok body
  else .error "response body closed before all bytes were read"

end Reply

namespace Command

/-- Loads a dataset. -/
def load (name path : String) (loadCsv : Bool) : Command :=
  ⟨.load, [("name", name), ("path", path), ("loadCSV", if loadCsv then "true" else "false")]⟩

/-- Drops a region. -/
def unload (name : String) : Command := ⟨.unload, [("name", name)]⟩

/-- Drops and deletes a region. -/
def erase (name : String) : Command := ⟨.erase, [("name", name)]⟩

/-- The parameters as a query. -/
def query (c : Command) : String := String.ofList (Percent.formQuery c.parameters)

/-- What a request asks for: the path and the query. -/
def target (c : Command) : String := "/" ++ c.operation.name ++ "?" ++ c.query

/-- The first line of the request. -/
def requestLine (c : Command) : String := "GET " ++ c.target ++ " HTTP/1.1"

/-- The URL of the request. -/
def url (c : Command) (service : ServiceUrl) : String := service.render c.operation.name c.query

/-- What a reply means. A status has three digits. One of 400 and above is a refusal with its body as
far as it can be read; below it, the body is the answer. -/
def outcome (c : Command) (service : ServiceUrl) : Reply → Except SessionError String
  | .unreachable reason =>
    .error (.transport c.operation
      (c.url service ++ ": Connection Failed: Connect error: " ++ reason))
  | .answer status body complete =>
    if status < 100 ∨ 999 < status then
      .error (.transport c.operation
        (c.url service ++ ": Bad Status: Status code was wrong length"))
    else
      match Reply.readBody status body complete with
      | .ok text =>
        if 400 ≤ status then .error (.remote c.operation status text) else .ok text
      | .error reason =>
        if 400 ≤ status then .error (.remote c.operation status "")
        else .error (.transport c.operation ("reading response body: " ++ reason))

/-- The report of an answer, if there is one. -/
def answered? (c : Command) (service : ServiceUrl) (reply : Reply) : Option Event :=
  match reply, c.outcome service reply with
  | .answer status _ _, .ok text => some (.answered c.operation status (Blank.trim text))
  | _, _ => none

variable {m : Type → Type} [Monad m]

/-- Sends a command to a service over a transport, which maps a command to its reply. -/
def send (service : ServiceUrl) (transport : Command → m Reply) (emit : Event → m Unit)
    (c : Command) : m (Except SessionError String) := do
  emit (.requesting c.operation (c.url service))
  let reply ← transport c
  if let some event := c.answered? service reply then
    emit event
  return c.outcome service reply

end Command

/-- The control plane of a service over a transport. -/
def ControlPlane.ofTransport {m : Type → Type} [Monad m] (service : ServiceUrl)
    (transport : Command → m Reply) (emit : Event → m Unit) : ControlPlane m where
  load name path loadCsv := (Command.load name path loadCsv).send service transport emit
  unload name := (Command.unload name).send service transport emit
  erase name := (Command.erase name).send service transport emit

/-- The service that a configured URL names. -/
def connect (serverUrl : String) : Except SessionError ServiceUrl :=
  match ServiceUrl.parse serverUrl with
  | .ok service => .ok service
  | .error reason => .error (.invalidUrl serverUrl reason)

end FlatTree
