import FlatTree.Proofs.Session.Log

/-!
# The bracket of a session

A session is run any number of times, on any service, with any regions and with any
closures: all of these may fail, in each run anew, and change the world as they
like. What a session does to them is written down in a log, act by act, with the
outcome of each. However the acts turn out, the log is one cycle after another.

- `Act`: what a session does.
- `Session.recorded`: the same session, with a log. Recording changes nothing.
- `Cycle`: the log of one run, with the outcome that the run has then.
- `Paired`: whatever is opened is closed, and in time.
- `Session.runAll_bracketed`: a sequence of runs is a sequence of cycles.
-/

namespace FlatTree

/-- What a session does: a command to the service, a region that is attached or
released, or a closure that is run. Closures may have results of several kinds. -/
inductive Act {ι : Type} (T : ι → Type) where
  | load (name path : String) (loadCsv : Bool) (answer : Except SessionError String)
  | unload (name : String) (answer : Except SessionError String)
  | erase (name : String) (answer : Except SessionError String)
  | attach (name : String) (answer : Except String ByteArray)
  | decode (kind : ι) (bytes : ByteArray) (result : Except SessionError (T kind))
  | release (name : String)

/-- A call of `Session.run`: a closure, with the kind of its result. -/
structure Call (m : Type → Type) {ι : Type} (T : ι → Type) where
  kind : ι
  decode : ByteArray → m (Except SessionError (T kind))

/-- What a call ends in. -/
abbrev Decoding {ι : Type} (T : ι → Type) := Σ kind, Except SessionError (T kind)

variable {ι : Type} {T : ι → Type} {m : Type → Type} [Monad m]

/-- Runs a session once for each call. -/
def Session.runAll (s : Session m) (calls : List (Call m T)) : m (List (Decoding T)) :=
  calls.mapM fun call => do return ⟨call.kind, ← s.run call.decode⟩

/-! ## The log -/

/-- Does something, and adds it to the log with its outcome. -/
def Act.record {α : Type} (act : α → Act T) (x : m α) : StateT (List (Act T)) m α := fun log => do
  let a ← x
  return (a, log ++ [act a])

/-- A service with a log of its commands. -/
def ControlPlane.recorded (control : ControlPlane m) :
    ControlPlane (StateT (List (Act T)) m) where
  load name path loadCsv := Act.record (.load name path loadCsv) (control.load name path loadCsv)
  unload name := Act.record (.unload name) (control.unload name)
  erase name := Act.record (.erase name) (control.erase name)

/-- A source of regions with a log of what becomes of them. -/
def RegionSource.recorded (regions : RegionSource m) :
    RegionSource (StateT (List (Act T)) m) where
  attach name := Act.record (.attach name) (regions.attach name)
  release name := Act.record (fun _ => .release name) (regions.release name)

/-- A session with a log of all that it does. -/
def Session.recorded (s : Session m) : Session (StateT (List (Act T)) m) where
  config := s.config
  control := s.control.recorded
  regions := s.regions.recorded
  emit event := StateT.lift (s.emit event)

/-- A call of which the closure is written down when it runs. -/
def Call.recorded (call : Call m T) : Call (StateT (List (Act T)) m) T where
  kind := call.kind
  decode bytes := Act.record (.decode call.kind bytes) (call.decode bytes)

/-! ## One run -/

/-- The log of one run, and what the run ends in: the first thing that failed, but
the unload only if nothing else did. -/
inductive Cycle (config : SessionConfig) : List (Act T) → Decoding T → Prop where
  | notLoaded {kind : ι} {e : SessionError} :
    Cycle config [.load config.datasetName config.datasetPath config.loadCsv (.error e)]
      ⟨kind, .error e⟩
  | notAttached {kind : ι} {text reason : String} {answer : Except SessionError String} :
    Cycle config [
        .load config.datasetName config.datasetPath config.loadCsv (.ok text),
        .attach config.datasetName (.error reason),
        .unload config.datasetName answer]
      ⟨kind, .error (.attach config.datasetName reason)⟩
  | notDecoded {kind : ι} {text : String} {bytes : ByteArray} {e : SessionError}
      {answer : Except SessionError String} :
    Cycle config [
        .load config.datasetName config.datasetPath config.loadCsv (.ok text),
        .attach config.datasetName (.ok bytes),
        .decode kind bytes (.error e),
        .release config.datasetName,
        .unload config.datasetName answer]
      ⟨kind, .error e⟩
  | notUnloaded {kind : ι} {text : String} {bytes : ByteArray} {value : T kind}
      {e : SessionError} :
    Cycle config [
        .load config.datasetName config.datasetPath config.loadCsv (.ok text),
        .attach config.datasetName (.ok bytes),
        .decode kind bytes (.ok value),
        .release config.datasetName,
        .unload config.datasetName (.error e)]
      ⟨kind, .error e⟩
  | finished {kind : ι} {text reply : String} {bytes : ByteArray} {value : T kind} :
    Cycle config [
        .load config.datasetName config.datasetPath config.loadCsv (.ok text),
        .attach config.datasetName (.ok bytes),
        .decode kind bytes (.ok value),
        .release config.datasetName,
        .unload config.datasetName (.ok reply)]
      ⟨kind, .ok value⟩

/-! ## What is opened is closed -/

namespace Act

/-- Any load, answered or refused. -/
def isLoad : Act T → Bool
  | .load .. => true
  | _ => false

/-- A load that succeeded. -/
def isLoaded : Act T → Bool
  | .load _ _ _ (.ok _) => true
  | _ => false

/-- Any unload, answered or refused. -/
def isUnload : Act T → Bool
  | .unload .. => true
  | _ => false

/-- An attach that succeeded. -/
def isAttached : Act T → Bool
  | .attach _ (.ok _) => true
  | _ => false

/-- A release. -/
def isRelease : Act T → Bool
  | .release _ => true
  | _ => false

end Act

/-- What is opened is closed before more is opened, and only what is open is closed.
What must stand `apart` comes only when nothing is open. The flag says whether
something is open at the start; at the end nothing is. -/
def Paired (opens closes apart : Act T → Bool) : Bool → List (Act T) → Prop
  | held, [] => held = false
  | held, act :: rest =>
    (opens act → held = false) ∧ (closes act → held = true) ∧ (apart act → held = false) ∧
      Paired opens closes apart (opens act || held && !closes act) rest

namespace Paired

variable {opens closes apart : Act T → Bool}

/-- Nothing is open between two logs. -/
theorem append {held : Bool} {log more : List (Act T)} (h : Paired opens closes apart held log)
    (h' : Paired opens closes apart false more) : Paired opens closes apart held (log ++ more) := by
  induction log generalizing held with
  | nil =>
    obtain rfl : held = false := h
    exact h'
  | cons act rest ih =>
    obtain ⟨opened, closed, stands, then_⟩ := h
    exact ⟨opened, closed, stands, ih then_⟩

theorem flatten {words : List (List (Act T))}
    (h : ∀ word ∈ words, Paired opens closes apart false word) :
    Paired opens closes apart false words.flatten := by
  induction words with
  | nil => rfl
  | cons word words ih =>
    rw [List.flatten_cons]
    exact (h word (by simp)).append (ih fun w hw => h w (by simp [hw]))

end Paired

namespace Cycle

variable {config : SessionConfig} {word : List (Act T)} {outcome : Decoding T}

theorem released (h : Cycle config word outcome) :
    Paired Act.isAttached Act.isRelease Act.isUnload false word := by
  cases h <;> simp [Paired, Act.isAttached, Act.isRelease, Act.isUnload]

theorem unloaded (h : Cycle config word outcome) :
    Paired Act.isLoaded Act.isUnload Act.isLoad false word := by
  cases h <;> simp [Paired, Act.isLoaded, Act.isUnload, Act.isLoad]

end Cycle

/-! ## Running with a log -/

section Run

variable {W : Type}

/-- Each act is logged with its outcome. -/
def Act.logs (config : SessionConfig) (kind : ι) : ActLogs (Act T) (T kind) where
  load answer word := word = [.load config.datasetName config.datasetPath config.loadCsv answer]
  attach answer word := word = [.attach config.datasetName answer]
  decode bytes result word := word = [.decode kind bytes result]
  release word := word = [.release config.datasetName]
  unload answer word := word = [.unload config.datasetName answer]

/-- What a run logs of its acts is one cycle. -/
theorem RunLog.cycle {config : SessionConfig} {kind : ι} {outcome : Except SessionError (T kind)}
    {word : List (Act T)} (h : RunLog config (Act.logs config kind) outcome word) :
    Cycle config word ⟨kind, outcome⟩ := by
  cases h with
  | notLoaded hload =>
    cases hload
    exact .notLoaded
  | notAttached hload hattach hunload =>
    cases hload
    cases hattach
    cases hunload
    exact .notAttached
  | @attached _ _ result answer _ _ _ _ _ hload hattach hdecode hrelease hunload =>
    cases hload
    cases hattach
    cases hdecode
    cases hrelease
    cases hunload
    cases result with
    | error e => exact .notDecoded
    | ok value =>
      cases answer with
      | error e => exact .notUnloaded
      | ok reply => exact .finished

namespace Session

variable (s : Session (StateM W))

theorem logged_recorded (call : Call (StateM W) T) :
    s.Logged s.recorded call.decode call.recorded.decode (Act.logs s.config call.kind) where
  config := rfl
  load := Logs.logged _ _
  attach := Logs.logged _ _
  decode _ := Logs.logged _ _
  release := Logs.logged _ _
  unload := Logs.logged _ _
  emit _ := Logs.lift _

/-- A run with a log ends as the run without it does, and logs one cycle. -/
theorem run_recorded (call : Call (StateM W) T) :
    Logs (do return ⟨call.kind, ← s.run call.decode⟩ : StateM W (Decoding T))
      (do return ⟨call.recorded.kind, ← s.recorded.run call.recorded.decode⟩)
      fun outcome word => Cycle s.config word outcome ∧ outcome.1 = call.kind := by
  refine (s.logged_recorded call).run.bind fun outcome word hword => .pure ?_
  rw [List.append_nil]
  exact ⟨hword.cycle, rfl⟩

theorem runAll_recorded (calls : List (Call (StateM W) T)) (log : List (Act T)) (w : W) :
    ∃ outcomes words w', s.runAll calls w = (outcomes, w') ∧
      s.recorded.runAll (calls.map Call.recorded) log w = ((outcomes, log ++ words.flatten), w') ∧
      List.Forall₂ (Cycle s.config) words outcomes ∧
      outcomes.map Sigma.fst = calls.map Call.kind := by
  obtain ⟨outcomes, _, w', runs, logged, words, rfl, hwords, hcalls⟩ :=
    Logs.mapM s.run_recorded calls log w
  rw [Session.runAll, Session.runAll, List.mapM_map]
  refine ⟨outcomes, words, w', runs, logged, hwords.imp fun _ _ h => ?_, ?_⟩
  · obtain ⟨_, -, hcycle, -⟩ := h
    exact hcycle
  · have hkinds : List.Forall₂ (fun kind kind' => kind = kind') (outcomes.map Sigma.fst)
        (calls.map Call.kind) := by
      refine List.forall₂_map_left_iff.mpr (List.forall₂_map_right_iff.mpr ?_)
      refine (hcalls.imp fun _ _ h => ?_).flip
      obtain ⟨_, -, hkind⟩ := h
      exact hkind
    rwa [List.forall₂_eq_eq_eq] at hkinds

/-- A sequence of runs with a log ends as it does without one, and logs a cycle for
each run: a load; after it, if it succeeds, an attach; after that, if it succeeds, the
closure and the release; and, unless the load failed, the unload. Each run ends in the
first error that it met, an error of the unload if that is the only one, and else in
what the closure returned. So what is attached is released once, and before any unload,
and what is loaded is unloaded once, and before any other load. -/
theorem runAll_bracketed (s : Session (StateM W)) (calls : List (Call (StateM W) T)) (w : W) :
    ∃ outcomes words w', s.runAll calls w = (outcomes, w') ∧
      s.recorded.runAll (calls.map Call.recorded) [] w = ((outcomes, words.flatten), w') ∧
      List.Forall₂ (Cycle s.config) words outcomes ∧
      outcomes.map Sigma.fst = calls.map Call.kind ∧
      Paired Act.isAttached Act.isRelease Act.isUnload false words.flatten ∧
      Paired Act.isLoaded Act.isUnload Act.isLoad false words.flatten := by
  obtain ⟨outcomes, words, w', runs, logged, cycles, kinds⟩ := s.runAll_recorded calls [] w
  have each : ∀ word ∈ words, ∃ outcome, Cycle s.config word outcome := by
    intro word hw
    obtain ⟨i, hi, rfl⟩ := List.getElem_of_mem hw
    exact ⟨_, List.forall₂_iff_get.1 cycles |>.2 i hi (cycles.length_eq ▸ hi)⟩
  refine ⟨outcomes, words, w', runs, logged, cycles, kinds, .flatten ?_, .flatten ?_⟩
  · intro word hw
    obtain ⟨_, cycle⟩ := each word hw
    exact cycle.released
  · intro word hw
    obtain ⟨_, cycle⟩ := each word hw
    exact cycle.unloaded

end Session

end Run

end FlatTree
