import FlatTree.Proofs.Session.Bracket

/-!
# Replies that count as success

A session over a service goes on after a load, and ends well after an unload, if the reply
counts as success: a status below 400, whatever its class, and a body that can be read. What
passes between a session and the two it deals with, the service and the source of regions, is
written down in a log, with every reply as it came.

- `Reply.Accepted`: the replies that count as success.
- `Dialogue`: the log of one run, and what the run ends in.
- `Remote.heeds`: in each run, a region is attached after an accepted load only, and a value is
  returned after an accepted unload only.
-/

namespace FlatTree

/-! ## Outcomes of replies -/

namespace Reply

/-- A reply that counts as success: a status of three digits below 400, and a body that can be
read, or none. -/
def Accepted : Reply → Prop
  | .unreachable _ => False
  | .answer status body complete => 100 ≤ status ∧ status < 400 ∧
      (status = 204 ∨ status = 304 ∨ body.utf8ByteSize ≤ bodyLimit ∧ complete = true)

/-- An answer that arrives as a whole, as it was sent: its status is in one of the classes from
2 to 5, its body is not too long to be read, and empty where the status allows none. -/
structure Delivered (status : Nat) (body : String) : Prop where
  lower : 200 ≤ status
  upper : status ≤ 599
  length : body.utf8ByteSize ≤ bodyLimit
  bodiless : status = 204 ∨ status = 304 → body = ""

variable {status : Nat} {body : String} {complete : Bool}

theorem exists_readBody_eq_ok :
    (∃ text, readBody status body complete = .ok text) ↔
      status = 204 ∨ status = 304 ∨ body.utf8ByteSize ≤ bodyLimit ∧ complete = true := by
  rw [readBody, ← or_assoc]
  by_cases hnone : status = 204 ∨ status = 304
  · rw [if_pos hnone]
    exact iff_of_true ⟨_, rfl⟩ (.inl hnone)
  rw [if_neg hnone, or_iff_right hnone]
  by_cases hlong : bodyLimit < body.utf8ByteSize
  · rw [if_pos hlong]
    refine iff_of_false ?_ fun h => absurd hlong (Nat.not_lt.mpr h.1)
    rintro ⟨text, h⟩
    cases h
  rw [if_neg hlong]
  cases complete with
  | true => exact iff_of_true ⟨_, rfl⟩ ⟨Nat.not_lt.mp hlong, rfl⟩
  | false =>
    refine iff_of_false ?_ fun h => Bool.false_ne_true h.2
    rintro ⟨text, h⟩
    cases h

/-- A body that arrives as a whole is read as it was sent. -/
theorem Delivered.readBody_eq (h : Delivered status body) :
    readBody status body true = .ok body := by
  rw [readBody]
  split
  · next hnone => rw [h.bodiless hnone]
  · rw [if_neg (Nat.not_lt.mpr h.length), if_pos rfl]

/-- Of the answers that arrive as a whole, those of the classes 2 and 3 count as success. -/
theorem Delivered.accepted_iff (h : Delivered status body) :
    Accepted (.answer status body true) ↔ status / 100 = 2 ∨ status / 100 = 3 := by
  have hlower := h.lower
  constructor
  · rintro ⟨-, hlt, -⟩
    omega
  · intro hclass
    exact ⟨by omega, by omega, exists_readBody_eq_ok.mp ⟨body, h.readBody_eq⟩⟩

end Reply

namespace Command

variable {c : Command} {service : ServiceUrl}

/-- A command succeeds by the replies that count as success, and by no others. -/
theorem exists_outcome_eq_ok {reply : Reply} :
    (∃ text, c.outcome service reply = .ok text) ↔ reply.Accepted := by
  cases reply with
  | unreachable reason =>
    refine iff_of_false ?_ id
    rintro ⟨text, h⟩
    cases h
  | answer status body complete =>
    rw [Reply.Accepted, ← Reply.exists_readBody_eq_ok, outcome]
    by_cases hdigits : status < 100 ∨ 999 < status
    · rw [if_pos hdigits]
      refine iff_of_false ?_ (by omega)
      rintro ⟨text, h⟩
      cases h
    rw [if_neg hdigits]
    by_cases hrefused : 400 ≤ status
    · simp only [if_pos hrefused]
      refine iff_of_false ?_ (by omega)
      rintro ⟨text, h⟩
      split at h <;> cases h
    · have hbounds : 100 ≤ status ∧ status < 400 := by omega
      simp only [if_neg hrefused, hbounds, true_and]
      cases Reply.readBody status body complete with
      | ok text => exact iff_of_true ⟨_, rfl⟩ ⟨_, rfl⟩
      | error reason =>
        refine iff_of_false ?_ ?_
        · rintro ⟨text, h⟩
          cases h
        · rintro ⟨text, h⟩
          cases h

/-- An answer that arrives as a whole succeeds with its body, or is a refusal with status and
body, by the class of its status. -/
theorem outcome_of_delivered {status : Nat} {body : String} (h : Reply.Delivered status body) :
    c.outcome service (.answer status body true) =
      if status / 100 = 2 ∨ status / 100 = 3 then .ok body
      else .error (.remote c.operation status body) := by
  have hlower := h.lower
  have hupper := h.upper
  rw [outcome, if_neg (by omega), h.readBody_eq]
  dsimp only
  split
  · next hrefused => rw [if_neg (by omega)]
  · next hbelow => rw [if_pos (by omega)]

end Command

/-! ## One run -/

/-- A run has a value only if the unload at its end has an answer. -/
theorem Session.exists_of_settle_eq_ok {α : Type} {outcome : Except SessionError α} {value : α}
    {unloaded : Except SessionError String} (h : settle outcome unloaded = .ok value) :
    ∃ text, unloaded = .ok text := by
  cases outcome with
  | error e => cases h
  | ok found =>
    cases unloaded with
    | error e => cases h
    | ok text => exact ⟨text, rfl⟩

/-- What passes between a session and those it deals with: a command and its reply, or what
becomes of a region. -/
inductive Dealing where
  | asked (command : Command) (reply : Reply)
  | attached (region : String) (answer : Except String ByteArray)
  | released (region : String)

variable {W : Type}

/-- A transport with a log of the replies. -/
def Dealing.transport (transport : Command → StateM W Reply) :
    Command → StateT (List Dealing) (StateM W) Reply :=
  fun command => logged (.asked command) (transport command)

/-- A source of regions with a log of what becomes of them. -/
def Dealing.regions (regions : RegionSource (StateM W)) :
    RegionSource (StateT (List Dealing) (StateM W)) where
  attach name := logged (.attached name) (regions.attach name)
  release name := logged (fun _ => .released name) (regions.release name)

/-- A session of which the control plane is a service over a transport. -/
structure Remote (W : Type) where
  config : SessionConfig
  service : ServiceUrl
  transport : Command → StateM W Reply
  regions : RegionSource (StateM W)
  emit : Event → StateM W Unit

namespace Remote

variable (r : Remote W) {ι : Type} {T : ι → Type}

/-- The session itself. -/
def session : Session (StateM W) where
  config := r.config
  control := .ofTransport r.service r.transport r.emit
  regions := r.regions
  emit := r.emit

/-- The session with a log. -/
def watched : Session (StateT (List Dealing) (StateM W)) where
  config := r.config
  control := .ofTransport r.service (Dealing.transport r.transport) fun e => StateT.lift (r.emit e)
  regions := Dealing.regions r.regions
  emit e := StateT.lift (r.emit e)

/-- The load of each run. -/
def load : Command := .load r.config.datasetName r.config.datasetPath r.config.loadCsv

/-- The unload of each run. -/
def unload : Command := .unload r.config.datasetName

/-- A command asks once, and its outcome is that of the reply. -/
theorem logs_send (c : Command) :
    Logs (c.send r.service r.transport r.emit)
      (c.send r.service (Dealing.transport r.transport) fun e => StateT.lift (r.emit e))
      fun outcome word =>
        ∃ reply, word = [.asked c reply] ∧ outcome = c.outcome r.service reply := by
  refine (Logs.lift _).bind fun _ _ hnone => ?_
  subst hnone
  refine (Logs.logged _ _).bind fun reply _ hasked => ?_
  subst hasked
  cases c.answered? r.service reply with
  | none => exact .pure ⟨reply, rfl, rfl⟩
  | some event =>
    refine (Logs.lift _).bind fun _ _ hnone => ?_
    subst hnone
    exact .pure ⟨reply, rfl, rfl⟩

end Remote

/-- The log of one run, and what the run ends in. -/
inductive Dialogue (r : Remote W) {ι : Type} {T : ι → Type} :
    List Dealing → Decoding T → Prop where
  | refused {kind : ι} {load : Reply} {e : SessionError}
      (hload : r.load.outcome r.service load = .error e) :
    Dialogue r [.asked r.load load] ⟨kind, .error e⟩
  | notAttached {kind : ι} {load unload : Reply} {reason : String} (hload : load.Accepted) :
    Dialogue r [
        .asked r.load load,
        .attached r.config.datasetName (.error reason),
        .asked r.unload unload]
      ⟨kind, .error (.attach r.config.datasetName reason)⟩
  | attached {kind : ι} {load unload : Reply} {bytes : ByteArray}
      {result : Except SessionError (T kind)} (hload : load.Accepted) :
    Dialogue r [
        .asked r.load load,
        .attached r.config.datasetName (.ok bytes),
        .released r.config.datasetName,
        .asked r.unload unload]
      ⟨kind, Session.settle result (r.unload.outcome r.service unload)⟩

/-- Each act is logged with what was replied, and closures are not. -/
def Remote.logs (r : Remote W) (α : Type) : ActLogs Dealing α where
  load answer word := ∃ load, word = [.asked r.load load] ∧ answer = r.load.outcome r.service load
  attach answer word := word = [.attached r.config.datasetName answer]
  decode _ _ word := word = []
  release word := word = [.released r.config.datasetName]
  unload answer word :=
    ∃ unload, word = [.asked r.unload unload] ∧ answer = r.unload.outcome r.service unload

theorem RunLog.dialogue {r : Remote W} {ι : Type} {T : ι → Type} {kind : ι}
    {outcome : Except SessionError (T kind)} {word : List Dealing}
    (h : RunLog r.config (r.logs (T kind)) outcome word) :
    Dialogue r word (⟨kind, outcome⟩ : Decoding T) := by
  cases h with
  | notLoaded hload =>
    obtain ⟨load, rfl, hload⟩ := hload
    exact .refused hload.symm
  | notAttached hload hattach hunload =>
    obtain ⟨load, rfl, hload⟩ := hload
    obtain ⟨unload, rfl, -⟩ := hunload
    cases hattach
    exact .notAttached (Command.exists_outcome_eq_ok.mp ⟨_, hload.symm⟩)
  | attached hload hattach hdecode hrelease hunload =>
    obtain ⟨load, rfl, hload⟩ := hload
    obtain ⟨unload, rfl, rfl⟩ := hunload
    cases hattach
    cases hdecode
    cases hrelease
    exact .attached (Command.exists_outcome_eq_ok.mp ⟨_, hload.symm⟩)

/-- A call of a session with a log. The closure has no part in the log. -/
def Call.watched {ι : Type} {T : ι → Type} (call : Call (StateM W) T) :
    Call (StateT (List Dealing) (StateM W)) T where
  kind := call.kind
  decode bytes := StateT.lift (call.decode bytes)

/-- A run that heeds the replies: a region is attached only right after a load that counts as
success, and a value is returned only if the unload after it counts as success. -/
structure Heeded (r : Remote W) {ι : Type} {T : ι → Type} (word : List Dealing)
    (outcome : Decoding T) : Prop where
  dialogue : Dialogue r word outcome
  attached : ∀ before region answer after, word = before ++ .attached region answer :: after →
    ∃ load, before = [.asked r.load load] ∧ load.Accepted
  returned : ∀ value, outcome.2 = .ok value →
    ∃ before unload, word = before ++ [.asked r.unload unload] ∧ unload.Accepted

namespace Dialogue

variable {r : Remote W} {ι : Type} {T : ι → Type} {word : List Dealing} {outcome : Decoding T}

/-- What stands second, and nowhere else, has the first before it. -/
theorem eq_singleton_of_append_cons {α : Type} {first second item : α}
    {rest before after : List α} (h : first :: second :: rest = before ++ item :: after)
    (hfirst : item ≠ first) (hrest : item ∉ rest) : before = [first] := by
  match before with
  | [] =>
    cases h
    exact absurd rfl hfirst
  | [_] =>
    cases h
    rfl
  | _ :: _ :: before =>
    obtain ⟨-, hsecond⟩ := List.cons.inj h
    obtain ⟨-, hbefore⟩ := List.cons.inj hsecond
    refine absurd ?_ hrest
    rw [hbefore]
    exact List.mem_append_right _ List.mem_cons_self

theorem exists_load (h : Dialogue r word outcome) {before after : List Dealing} {region : String}
    {answer : Except String ByteArray} (hword : word = before ++ .attached region answer :: after) :
    ∃ load, before = [.asked r.load load] ∧ load.Accepted := by
  cases h with
  | refused hload => cases before <;> simp at hword
  | @notAttached _ load _ _ hload =>
    exact ⟨load, eq_singleton_of_append_cons hword nofun (by simp), hload⟩
  | @attached _ load _ _ _ hload =>
    exact ⟨load, eq_singleton_of_append_cons hword nofun (by simp), hload⟩

theorem exists_unload (h : Dialogue r word outcome) {value : T outcome.1}
    (houtcome : outcome.2 = .ok value) :
    ∃ before unload, word = before ++ [.asked r.unload unload] ∧ unload.Accepted := by
  cases h with
  | refused hload => cases houtcome
  | notAttached hload => cases houtcome
  | @attached _ load unload bytes result hload =>
    have hanswer := Session.exists_of_settle_eq_ok houtcome
    exact ⟨[_, _, _], unload, rfl, Command.exists_outcome_eq_ok.mp hanswer⟩

theorem heeded (h : Dialogue r word outcome) : Heeded r word outcome where
  dialogue := h
  attached _ _ _ _ hword := h.exists_load hword
  returned _ houtcome := h.exists_unload houtcome

end Dialogue

namespace Remote

variable (r : Remote W) {ι : Type} {T : ι → Type}

theorem logged_watched (call : Call (StateM W) T) :
    r.session.Logged r.watched call.decode call.watched.decode (r.logs (T call.kind)) where
  config := rfl
  load := r.logs_send r.load
  attach := Logs.logged _ _
  decode _ := Logs.lift _
  release := Logs.logged _ _
  unload := r.logs_send r.unload
  emit _ := Logs.lift _

theorem run_watched (call : Call (StateM W) T) :
    Logs (do return ⟨call.kind, ← r.session.run call.decode⟩ : StateM W (Decoding T))
      (do return ⟨call.watched.kind, ← r.watched.run call.watched.decode⟩)
      fun outcome word => Dialogue r word outcome := by
  refine (r.logged_watched call).run.bind fun outcome word hword => .pure ?_
  rw [List.append_nil]
  exact hword.dialogue

/-- The log of a sequence of runs is one dialogue after another. -/
theorem runAll_watched (calls : List (Call (StateM W) T)) :
    Logs (r.session.runAll calls) (r.watched.runAll (calls.map Call.watched))
      fun outcomes log => ∃ words, log = words.flatten ∧
        List.Forall₂ (Dialogue r) words outcomes := by
  rw [Session.runAll, Session.runAll, List.mapM_map]
  refine (Logs.mapM r.run_watched calls).mono fun outcomes log hlog => ?_
  obtain ⟨words, hlog, hwords, -⟩ := hlog
  refine ⟨words, hlog, hwords.imp fun _ _ hword => ?_⟩
  obtain ⟨_, -, hdialogue⟩ := hword
  exact hdialogue

/-- What a service replies is heeded, in every command and every run. -/
structure Heeds (r : Remote W) : Prop where
  /-- An answer that arrives as a whole is a success with its body, or else a refusal with its
  status and its body, by the class of the status. -/
  outcome : ∀ (c : Command) (status : Nat) (body : String), Reply.Delivered status body →
    c.outcome r.service (.answer status body true) =
      if status / 100 = 2 ∨ status / 100 = 3 then .ok body
      else .error (.remote c.operation status body)
  accepted : ∀ (status : Nat) (body : String), Reply.Delivered status body →
    (Reply.Accepted (.answer status body true) ↔ status / 100 = 2 ∨ status / 100 = 3)
  /-- A command asks once, and ends in what the reply means. -/
  send : ∀ c : Command, Logs (c.send r.service r.transport r.emit)
    (c.send r.service (Dealing.transport r.transport) fun e => StateT.lift (r.emit e))
    fun outcome word => ∃ reply, word = [.asked c reply] ∧ outcome = c.outcome r.service reply
  runAll : ∀ {ι : Type} {T : ι → Type} (calls : List (Call (StateM W) T)),
    Logs (r.session.runAll calls) (r.watched.runAll (calls.map Call.watched))
      fun outcomes log => ∃ words, log = words.flatten ∧ List.Forall₂ (Heeded r) words outcomes

/-- **Replies are heeded.** An answer counts as success by its status alone, and statuses of
redirections do as those of the class 2 do. Whatever a service replies, whatever becomes of the
region and whatever the closures do, each run of a session attaches the region only after a load
that counts as success, and has a value only if the unload does. -/
theorem heeds (r : Remote W) : r.Heeds where
  outcome _ _ _ h := Command.outcome_of_delivered h
  accepted _ _ h := h.accepted_iff
  send := r.logs_send
  runAll calls := by
    refine (r.runAll_watched calls).mono fun outcomes log hwords => ?_
    obtain ⟨words, hlog, hdialogues⟩ := hwords
    exact ⟨words, hlog, hdialogues.imp fun _ _ => Dialogue.heeded⟩

/-- A service that replies in turn, and a region that is there. -/
def scripted (region : ByteArray) : Remote (List Reply) where
  config := {}
  service := ⟨"http", "", .ipv4 0x7f000001, some 3000⟩
  transport _ script := (script.headD (.unreachable ""), script.tail)
  regions := ⟨fun _ => pure (.ok region), fun _ => pure ()⟩
  emit _ := pure ()

/-- Redirections to nowhere count as success: the region is attached after the first, and the
run has a value after the second. -/
theorem heeds_redirections :
    (scripted .empty).load.outcome (scripted .empty).service (.answer 302 "moved" true) =
        .ok "moved" ∧
      Reply.Accepted (.answer 304 "" true) ∧
      (scripted .empty).watched.runAll
          [(⟨(), fun bytes => pure (.ok bytes.size)⟩ : Call _ fun _ : Unit => Nat)] []
          [.answer 302 "moved" true, .answer 304 "" true] =
        (([⟨(), .ok 0⟩], [
          .asked (scripted .empty).load (.answer 302 "moved" true),
          .attached "datapackage" (.ok .empty),
          .released "datapackage",
          .asked (scripted .empty).unload (.answer 304 "" true)]), []) := by
  have hmoved : Reply.Delivered 302 "moved" := ⟨by decide, by decide, by decide, nofun⟩
  have hunchanged : Reply.Delivered 304 "" := ⟨by decide, by decide, by decide, fun _ => rfl⟩
  refine ⟨?_, ?_, rfl⟩
  · exact ((scripted .empty).heeds.outcome _ _ _ hmoved).trans (if_pos (.inr rfl))
  · exact ((scripted .empty).heeds.accepted _ _ hunchanged).mpr (.inr rfl)

end Remote

end FlatTree
