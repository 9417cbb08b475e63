import FlatTree.CommandLine.Report
import FlatTree.CommandLine.Request
import FlatTree.Decode.Eager
import FlatTree.Session.Bracket
import FlatTree.View.Materialize

/-!
# Running requests

The commands over an environment that reads files, opens shared memory and carries requests to
services. A failed command answers its error and what caused it, outermost first.

- `Environment`: what a command needs of the world.
- `Invocation.run`: runs a command.
- `Outcome`, `execute`: runs a command line.
-/

namespace FlatTree.CommandLine

/-- What a command needs of the world. Failures come with the reason that the system gives. -/
structure Environment (m : Type → Type) where
  fileBytes : (path : String) → m (Except String ByteArray)
  /-- Opens a shared memory object by its name, which starts with a slash. -/
  openObject : (name : String) → m (Except String ByteArray)
  /-- Carries a command to a service. -/
  transport : ServiceUrl → Command → m Reply
  /-- Prints a part of the result. -/
  print : String → m Unit
  emit : Event → m Unit

/-- An error and what caused it, outermost first. -/
abbrev Failure := List String

variable {m : Type → Type} [Monad m]

namespace Environment

/-- The session of a configuration with a service. -/
def session (env : Environment m) (config : SessionConfig) (service : ServiceUrl) : Session m where
  config := config
  control := ControlPlane.ofTransport service (env.transport service) env.emit
  regions := RegionSource.shared env.openObject env.emit
  emit := env.emit

end Environment

/-- Decodes a dataset inside a session and prints the result. A failure of the session is put into
a context; a configuration without a usable service fails before there is one. -/
def runSession {α : Type} (env : Environment m) (config : SessionConfig) (context : String)
    (decode : ByteArray → Decoded α) (report : α → String) : m (Except Failure Unit) := do
  match connect config.serverUrl with
  | .error e => return .error e.chain
  | .ok service =>
    let session := env.session config service
    match ← session.run fun bytes => return (decode bytes).mapError .decode with
    | .error e => return .error (context :: e.chain)
    | .ok result =>
      env.print (report result)
      return .ok ()

/-- What a sum was wanted of. -/
def sumContext (config : SessionConfig) (column : String) : String :=
  s!"cannot aggregate {Quoted.quote column} of {config.datasetPath}"

/-- Decodes a dataset as a whole. -/
def runEager (env : Environment m) (config : SessionConfig) :
    EagerOutput → m (Except Failure Unit)
  | .tree json =>
    runSession env config s!"cannot decode {config.datasetPath}"
      (Eager.decodeBuffer defaultMaxDepth) (treeReport json)
  | .sum column =>
    runSession env config (sumContext config column)
      (fun bytes => do Package.sumValue (← Eager.decodeBuffer defaultMaxDepth bytes) column)
      (sumReport column)

/-- Sums a column of a dataset through views. -/
def runLazy (env : Environment m) (config : SessionConfig) (column : String) :
    m (Except Failure Unit) :=
  runSession env config (sumContext config column)
    (fun bytes => do Package.sumView (← View.root bytes) column)
    (sumReport column)

/-- Decodes a buffer in a file. -/
def runInspect (env : Environment m) (path : String) (views json : Bool) :
    m (Except Failure Unit) := do
  match ← env.fileBytes path with
  | .error reason => return .error [s!"cannot read {path}", reason]
  | .ok bytes =>
    match Regions.parse bytes with
    | .error fault => return .error [s!"invalid buffer layout in {path}", fault.message]
    | .ok r =>
      env.print (layoutReport r)
      let root :=
        if views then View.ofIndex r 0 >>= View.materialize
        else Eager.decodeExpression r defaultMaxDepth 0
      match root with
      | .error e => return .error (s!"failed to decode {path}" :: e.chain)
      | .ok value =>
        env.print (treeReport json value)
        return .ok ()

/-- Runs a command. -/
def Invocation.run (env : Environment m) : Invocation → m (Except Failure Unit)
  | .eager config output => runEager env config output
  | .lazy config column => runLazy env config column
  | .inspect path views json => runInspect env path views json

/-- How a command line ends. -/
inductive Outcome where
  | success
  | failure (chain : Failure)
  | stopped (stop : Stop)
  deriving DecidableEq, Repr

namespace Outcome

/-- The exit code: 1 for a failure and 2 for misuse. -/
def exitCode : Outcome → UInt8
  | success => 0
  | failure _ => 1
  | stopped (.misuse _) => 2
  | stopped _ => 0

end Outcome

/-- Runs the words of a command line. The environment may depend on how much is reported. -/
def execute (env : Verbosity → Environment m) (words : List String) : m Outcome := do
  match Request.ofWords words with
  | .error stop => return .stopped stop
  | .ok request =>
    match ← request.invocation.run (env request.verbosity) with
    | .ok () => return .success
    | .error chain => return .failure chain

end FlatTree.CommandLine
