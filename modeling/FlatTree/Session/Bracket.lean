import FlatTree.Session.Config
import FlatTree.Session.Control
import FlatTree.Session.Region

/-!
# Sessions

A session brackets a decode: load, attach, decode, release, unload. Once the load succeeded, the
unload is always sent, and always after the region is released, so the service is never asked to
reclaim memory that is still attached. A session may be run any number of times.

- `Session`: a configuration, a control plane and a source of regions.
- `Session.run`: one run. The load error ends it at once; otherwise the attach or decode error wins
  over the unload error.
-/

namespace FlatTree

/-- What a session works with. -/
structure Session (m : Type → Type) where
  config : SessionConfig
  control : ControlPlane m
  regions : RegionSource m
  emit : Event → m Unit

namespace Session

variable {m : Type → Type} [Monad m] {α : Type}

/-- Attaches the region, decodes its bytes and releases it. -/
def attachAndDecode (s : Session m) (decode : ByteArray → m (Except SessionError α)) :
    m (Except SessionError α) := do
  let name := s.config.datasetName
  match ← s.regions.attach name with
  | .error reason => return .error (.attach name reason)
  | .ok bytes =>
    let result ← decode bytes
    s.emit (.decoded name result.isOk)
    s.regions.release name
    return result

/-- The error of a run in which something failed, or its result. -/
def settle (outcome : Except SessionError α) (unloaded : Except SessionError String) :
    Except SessionError α :=
  match outcome, unloaded with
  | .ok value, .ok _ => .ok value
  | .ok _, .error e => .error e
  | .error e, _ => .error e

/-- Runs `decode` over the bytes of the dataset inside the bracket. -/
def run (s : Session m) (decode : ByteArray → m (Except SessionError α)) :
    m (Except SessionError α) := do
  let name := s.config.datasetName
  let path := s.config.datasetPath
  s.emit (.loading name path)
  match ← s.control.load name path s.config.loadCsv with
  | .error e => return .error e
  | .ok _ =>
    let outcome ← s.attachAndDecode decode
    s.emit (.unloading name)
    let unloaded ← s.control.unload name
    if let (.error _, .error e) := (outcome, unloaded) then
      s.emit (.unloadFailed name e)
    return settle outcome unloaded

end Session

end FlatTree
