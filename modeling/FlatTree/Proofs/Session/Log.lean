import Mathlib.Data.List.Forall2
import FlatTree.Session.Bracket

/-!
# Sessions with a log

What a session does is written down in a log. Writing changes nothing: the computation with the
log ends as the one without, in the same world. What is in the log follows from what each act of
the session adds to it, however the acts turn out.

- `Logs`: a computation, the same one with a log, and what is logged.
- `Logs.bind`, `Logs.mapM`: logs of computations one after another.
- `Session.Logged`: a session, the same one with a log, and what each act logs.
- `RunLog`, `Session.Logged.run`: what a run logs then.
-/

namespace FlatTree

variable {W D α β : Type}

/-! ## Logs -/

/-- Does something, and adds it to the log with its outcome. -/
def logged (entry : α → D) (x : StateM W α) : StateT (List D) (StateM W) α := fun log => do
  let a ← x
  return (a, log ++ [entry a])

/-- A computation with a log ends as the one without it does, and adds to the log something of
which the result and the log have the property. -/
def Logs (x : StateM W α) (x' : StateT (List D) (StateM W) α) (post : α → List D → Prop) : Prop :=
  ∀ log w, ∃ a word w', x w = (a, w') ∧ x' log w = ((a, log ++ word), w') ∧ post a word

namespace Logs

variable {x : StateM W α} {x' : StateT (List D) (StateM W) α} {post : α → List D → Prop}

theorem pure {a : α} (h : post a []) :
    Logs (Pure.pure a : StateM W α) (Pure.pure a : StateT (List D) (StateM W) α) post := by
  intro log w
  refine ⟨a, [], w, rfl, ?_, h⟩
  rw [List.append_nil]
  rfl

theorem mono {post' : α → List D → Prop} (h : Logs x x' post)
    (himp : ∀ a word, post a word → post' a word) : Logs x x' post' := by
  intro log w
  obtain ⟨a, word, w', hx, hx', hpost⟩ := h log w
  exact ⟨a, word, w', hx, hx', himp a word hpost⟩

/-- What is logged first stays in front of what is logged then. -/
theorem bind {f : α → StateM W β} {f' : α → StateT (List D) (StateM W) β}
    {after : β → List D → Prop} (h : Logs x x' post)
    (hf : ∀ a word, post a word → Logs (f a) (f' a) fun b more => after b (word ++ more)) :
    Logs (x >>= f) (x' >>= f') after := by
  intro log w
  obtain ⟨a, word, w₁, hx, hx', hpost⟩ := h log w
  obtain ⟨b, more, w₂, hfx, hfx', hafter⟩ := hf a word hpost (log ++ word) w₁
  refine ⟨b, word ++ more, w₂, ?_, ?_, hafter⟩
  · simp only [Bind.bind, StateT.bind, hx]
    exact hfx
  · rw [← List.append_assoc]
    simp only [Bind.bind, StateT.bind, hx']
    exact hfx'

/-- What is not meant for the log leaves it as it is. -/
theorem lift (x : StateM W α) :
    Logs x (StateT.lift x : StateT (List D) (StateM W) α) fun _ word => word = [] := by
  intro log w
  refine ⟨(x w).1, [], (x w).2, rfl, ?_, rfl⟩
  rw [List.append_nil]
  rfl

theorem logged (entry : α → D) (x : StateM W α) :
    Logs x (logged entry x) fun a word => word = [entry a] := by
  intro log w
  exact ⟨(x w).1, [entry (x w).1], (x w).2, rfl, rfl, rfl⟩

/-- What is done for each item of a list is logged one after the other. -/
theorem mapM {γ : Type} {f : γ → StateM W β} {f' : γ → StateT (List D) (StateM W) β}
    {post : γ → β → List D → Prop} (h : ∀ c, Logs (f c) (f' c) (post c)) (items : List γ) :
    Logs (items.mapM f) (items.mapM f') fun results log => ∃ words, log = words.flatten ∧
      List.Forall₂ (fun word b => ∃ c ∈ items, post c b word) words results ∧
      List.Forall₂ (fun c b => ∃ word, post c b word) items results := by
  induction items with
  | nil => exact .pure ⟨[], rfl, .nil, .nil⟩
  | cons c items ih =>
    rw [List.mapM_cons, List.mapM_cons]
    refine (h c).bind fun b word hpost => ?_
    refine ih.bind fun results _ hwords => .pure ?_
    obtain ⟨words, rfl, hposts, hitems⟩ := hwords
    refine ⟨word :: words, by rw [List.append_nil, List.flatten_cons], ?_,
      .cons ⟨word, hpost⟩ hitems⟩
    refine .cons ⟨c, List.mem_cons_self, hpost⟩ (hposts.imp fun _ _ hposts => ?_)
    obtain ⟨other, hother, hpost⟩ := hposts
    exact ⟨other, List.mem_cons_of_mem _ hother, hpost⟩

end Logs

/-! ## Runs -/

/-- What is logged of each act of a session, with the outcome of the act. -/
structure ActLogs (D α : Type) where
  load : Except SessionError String → List D → Prop
  attach : Except String ByteArray → List D → Prop
  decode : ByteArray → Except SessionError α → List D → Prop
  release : List D → Prop
  unload : Except SessionError String → List D → Prop

/-- A session and the same one with a log, act by act. Reports are not logged. -/
structure Session.Logged (s : Session (StateM W)) (s' : Session (StateT (List D) (StateM W)))
    (decode : ByteArray → StateM W (Except SessionError α))
    (decode' : ByteArray → StateT (List D) (StateM W) (Except SessionError α))
    (acts : ActLogs D α) : Prop where
  config : s'.config = s.config
  load : Logs (s.control.load s.config.datasetName s.config.datasetPath s.config.loadCsv)
    (s'.control.load s.config.datasetName s.config.datasetPath s.config.loadCsv) acts.load
  attach : Logs (s.regions.attach s.config.datasetName) (s'.regions.attach s.config.datasetName)
    acts.attach
  decode : ∀ bytes, Logs (decode bytes) (decode' bytes) (acts.decode bytes)
  release : Logs (s.regions.release s.config.datasetName)
    (s'.regions.release s.config.datasetName) fun _ => acts.release
  unload : Logs (s.control.unload s.config.datasetName) (s'.control.unload s.config.datasetName)
    acts.unload
  emit : ∀ event, Logs (s.emit event) (s'.emit event) fun _ word => word = []

/-- What a run logs, and what it ends in: after a load there is one unload, and it comes last;
what is attached is read once and released. -/
inductive RunLog (config : SessionConfig) (acts : ActLogs D α) :
    Except SessionError α → List D → Prop where
  | notLoaded {e : SessionError} {load : List D} (hload : acts.load (.error e) load) :
    RunLog config acts (.error e) load
  | notAttached {text reason : String} {answer : Except SessionError String}
      {load attach unload : List D} (hload : acts.load (.ok text) load)
      (hattach : acts.attach (.error reason) attach) (hunload : acts.unload answer unload) :
    RunLog config acts (.error (.attach config.datasetName reason)) (load ++ (attach ++ unload))
  | attached {text : String} {bytes : ByteArray} {result : Except SessionError α}
      {answer : Except SessionError String} {load attach decode release unload : List D}
      (hload : acts.load (.ok text) load) (hattach : acts.attach (.ok bytes) attach)
      (hdecode : acts.decode bytes result decode) (hrelease : acts.release release)
      (hunload : acts.unload answer unload) :
    RunLog config acts (Session.settle result answer)
      (load ++ (attach ++ (decode ++ (release ++ unload))))

namespace Session.Logged

variable {s : Session (StateM W)} {s' : Session (StateT (List D) (StateM W))}
  {decode : ByteArray → StateM W (Except SessionError α)}
  {decode' : ByteArray → StateT (List D) (StateM W) (Except SessionError α)}
  {acts : ActLogs D α}

/-- A region that cannot be attached is neither read nor released; one that is attached is read
once and released, whatever the closure says. -/
theorem attachAndDecode (h : s.Logged s' decode decode' acts) :
    Logs (s.attachAndDecode decode) (s'.attachAndDecode decode') fun outcome word =>
      (∃ reason, acts.attach (.error reason) word ∧
        outcome = .error (.attach s.config.datasetName reason)) ∨
      ∃ bytes attach decode release, acts.attach (.ok bytes) attach ∧
        acts.decode bytes outcome decode ∧ acts.release release ∧
        word = attach ++ (decode ++ release) := by
  rw [Session.attachAndDecode, Session.attachAndDecode, h.config]
  refine h.attach.bind fun answer attach hattach => ?_
  cases answer with
  | error reason =>
    refine .pure (.inl ⟨reason, ?_, rfl⟩)
    rw [List.append_nil]
    exact hattach
  | ok bytes =>
    refine (h.decode bytes).bind fun result decode hdecode => ?_
    refine (h.emit _).bind fun _ _ hnone => ?_
    subst hnone
    refine h.release.bind fun _ release hrelease => .pure (.inr ?_)
    exact ⟨bytes, attach, decode, release, hattach, hdecode, hrelease, by simp⟩

/-- **A run does one cycle of acts**, and ends in the first error among them, but in one of the
unload only if there is no other. -/
theorem run (h : s.Logged s' decode decode' acts) :
    Logs (s.run decode) (s'.run decode') (RunLog s.config acts) := by
  rw [Session.run, Session.run, h.config]
  refine (h.emit _).bind fun _ _ hnone => ?_
  subst hnone
  refine h.load.bind fun loaded load hload => ?_
  cases loaded with
  | error e =>
    refine .pure ?_
    rw [List.append_nil, List.nil_append]
    exact .notLoaded hload
  | ok text =>
    refine h.attachAndDecode.bind fun outcome word hword => ?_
    refine (h.emit _).bind fun _ _ hnone => ?_
    subst hnone
    refine h.unload.bind fun answer unload hunload => ?_
    have hrun : RunLog s.config acts (settle outcome answer) (load ++ (word ++ unload)) := by
      rcases hword with ⟨reason, hattach, rfl⟩ |
        ⟨bytes, attach, decode, release, hattach, hdecode, hrelease, rfl⟩
      · exact .notAttached hload hattach hunload
      · simp only [List.append_assoc]
        exact .attached hload hattach hdecode hrelease hunload
    -- Only where both failed is there something to report before the run ends.
    cases outcome with
    | ok value =>
      refine .pure ?_
      simpa using hrun
    | error e =>
      cases answer with
      | ok _ =>
        refine .pure ?_
        simpa using hrun
      | error _ =>
        refine (h.emit _).bind fun _ _ hnone => .pure ?_
        subst hnone
        simpa using hrun

end Session.Logged

end FlatTree
