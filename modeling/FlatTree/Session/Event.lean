import FlatTree.Session.Error

/-!
# Session events

What a session reports while it runs, in order.

- `Event`: the reports.
- `Event.render`: a report as a line of its level, its text and its fields.
-/

namespace FlatTree

/-- What a session reports. -/
inductive Event where
  | loading (dataset path : String)
  | decoded (dataset : String) (ok : Bool)
  | unloading (dataset : String)
  /-- The unload failed after an error that is reported in its place. -/
  | unloadFailed (dataset : String) (error : SessionError)
  | requesting (operation : Operation) (url : String)
  | answered (operation : Operation) (status : Nat) (body : String)
  | attached (region : String) (bytes : Nat)
  | released (region : String)
  deriving DecidableEq, Repr

/-- How much a report matters. -/
inductive Level where
  | debug
  | info
  | warn
  deriving DecidableEq, Repr

/-- The name of a level. -/
def Level.name : Level → String
  | debug => "DEBUG"
  | info => "INFO"
  | warn => "WARN"

namespace Event

/-- How much a report matters. -/
def level : Event → Level
  | requesting _ _ => .debug
  | unloadFailed _ _ => .warn
  | _ => .info

/-- A report without its level. -/
def text : Event → String
  | loading dataset path => s!"loading dataset dataset={Quoted.quote dataset} path={path}"
  | decoded dataset ok => s!"decode finished dataset={Quoted.quote dataset} ok={ok}"
  | unloading dataset => s!"unloading dataset dataset={Quoted.quote dataset}"
  | unloadFailed dataset error =>
    s!"unload failed after decode error dataset={Quoted.quote dataset} error={error.message}"
  | requesting operation url => s!"sending {operation.name} request url={url}"
  | answered operation status body =>
    s!"service answered operation={Quoted.quote operation.name} status={status} " ++
      s!"body={Quoted.quote body}"
  | attached region bytes =>
    s!"attached shared memory region={Quoted.quote region} bytes={bytes}"
  | released region => s!"released shared memory region={region}"

/-- A report as a line. -/
def render (e : Event) : String := e.level.name ++ " " ++ e.text

end Event

end FlatTree
