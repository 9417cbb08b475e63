import FlatTree.Session.Http
import FlatTree.Proofs.Url.Authority

/-!
# Requests say what was commanded

A service reads a request from its first line: the method, the target and the version
between spaces, the path and the query on either side of a question mark, and the fields
of the query. Read like that, a request is the command that was given, whatever names and
paths are in it.

- `Http.asked?`: what a request asks for, as a service reads it.
- `Command.asked?_request`: it is the operation and the parameters of the command.
- `Command.Issued`: the commands that a control plane gives.
- `Http.sent`: the requests that a call on a control plane sends.
- `Command.Faithful`, `Command.faithful_of_connect`: on every service, calls send what they
  were given, and nothing else.
-/

namespace FlatTree

namespace Http

/-- The path of a request target, without its slash, and the fields of its query. -/
def readTarget? (target : List Char) : Option (String × List (String × String)) :=
  match splitOn '?' target with
  | ['/' :: path, query] =>
    (Percent.formPairs? query).map fun fields => (String.ofList path, fields)
  | _ => none

/-- What a request line asks for. -/
def readLine? (line : List Char) : Option (String × List (String × String)) :=
  match splitOn ' ' line with
  | [method, target, version] =>
    if method = "GET".toList ∧ version = "HTTP/1.1".toList then readTarget? target else none
  | _ => none

/-- The first line of a text. -/
def firstLine (text : String) : List Char := text.toList.takeWhile fun c => c ≠ '\r' ∧ c ≠ '\n'

/-- What a request asks for, as a service reads it. -/
def asked? (request : String) : Option (String × List (String × String)) :=
  readLine? (firstLine request)

end Http

namespace Command

variable {c : Command}

theorem toList_target (c : Command) :
    c.target.toList =
      ('/' :: c.operation.name.toList) ++ '?' :: Percent.formQuery c.parameters := by
  rw [target, query]
  simp [String.toList_append]

theorem toList_requestLine (c : Command) :
    c.requestLine.toList =
      "GET".toList ++ ' ' :: (c.target.toList ++ ' ' :: "HTTP/1.1".toList) := by
  rw [requestLine]
  simp [String.toList_append]

theorem not_mem_name {sep : Char} (hsep : Percent.IsSeparator sep) (operation : Operation) :
    sep ∉ operation.name.toList := by
  have hname : operation.name.toList.all fun c => Percent.isFormByte c.toNat.toUInt8 := by
    cases operation <;> decide
  intro h
  have hform := List.all_eq_true.mp hname sep h
  rw [hsep.1] at hform
  cases hform

/-- What joins a request is not in its target, other than where the target is put together. -/
theorem not_mem_target {sep : Char} (hsep : Percent.IsSeparator sep)
    (hjoins : sep ∉ ['/', '?', '=', '&']) (c : Command) : sep ∉ c.target.toList := by
  simp only [List.mem_cons, List.not_mem_nil, or_false, not_or] at hjoins
  obtain ⟨hslash, hquery, hequals, hand⟩ := hjoins
  simp only [toList_target, List.mem_append, List.mem_cons, not_or]
  exact ⟨⟨hslash, not_mem_name hsep _⟩, hquery, Percent.not_mem_formQuery hsep hequals hand _⟩

/-- There is no line break in a request line. -/
theorem not_mem_requestLine {sep : Char} (hsep : sep = '\r' ∨ sep = '\n') (c : Command) :
    sep ∉ c.requestLine.toList := by
  rw [toList_requestLine]
  simp only [List.mem_append, List.mem_cons, not_or]
  rcases hsep with rfl | rfl
  · exact ⟨by decide, by decide, not_mem_target (by decide) (by decide) c, by decide, by decide⟩
  · exact ⟨by decide, by decide, not_mem_target (by decide) (by decide) c, by decide, by decide⟩

/-- The operation and the parameters are read back from the target. -/
theorem readTarget?_target (hparameters : c.parameters ≠ []) :
    Http.readTarget? c.target.toList = some (c.operation.name, c.parameters) := by
  have hquestion : Percent.IsSeparator '?' := by decide
  have hpath : '?' ∉ '/' :: c.operation.name.toList := by
    rw [List.mem_cons, not_or]
    exact ⟨by decide, not_mem_name hquestion _⟩
  rw [Http.readTarget?, toList_target, splitOn_append_cons _ hpath,
    splitOn_eq_singleton (Percent.not_mem_formQuery hquestion (by decide) (by decide) _)]
  show (Percent.formPairs? (Percent.formQuery c.parameters)).map _ = _
  rw [Percent.formPairs?_formQuery hparameters, Option.map_some, String.ofList_toList]

theorem readLine?_requestLine (hparameters : c.parameters ≠ []) :
    Http.readLine? c.requestLine.toList = some (c.operation.name, c.parameters) := by
  rw [Http.readLine?, toList_requestLine, splitOn_append_cons _ (by decide),
    splitOn_append_cons _ (not_mem_target (by decide) (by decide) c),
    splitOn_eq_singleton (by decide)]
  show (if _ then _ else _) = _
  rw [if_pos ⟨rfl, rfl⟩, readTarget?_target hparameters]

/-- The first line of a request is the request line. -/
theorem firstLine_request (service : ServiceUrl) (c : Command) :
    Http.firstLine (Http.request service c) = c.requestLine.toList := by
  have hline : ∀ d ∈ c.requestLine.toList, decide (d ≠ '\r' ∧ d ≠ '\n') := by
    intro d hd
    refine decide_eq_true ⟨?_, ?_⟩
    · rintro rfl
      exact not_mem_requestLine (.inl rfl) c hd
    · rintro rfl
      exact not_mem_requestLine (.inr rfl) c hd
  rw [Http.firstLine, Http.request, String.toList_intercalate, List.map_cons, List.map_cons,
    List.intercalate_cons_cons, List.append_assoc]
  exact takeWhile_append_cons hline rfl _

/-- **A service reads the command that was given.** -/
theorem asked?_request (service : ServiceUrl) (hparameters : c.parameters ≠ []) :
    Http.asked? (Http.request service c) = some (c.operation.name, c.parameters) := by
  rw [Http.asked?, firstLine_request, readLine?_requestLine hparameters]

/-- The URL of a command splits into the authority of the service and the request target. -/
theorem split?_url {service : ServiceUrl} (h : service.Normal) (hparameters : c.parameters ≠ []) :
    ServiceUrl.split? (c.url service).toList =
      some (service.scheme.toList, service.renderAuthority.toList, c.target.toList) := by
  have htarget : ∃ path, c.target.toList = '/' :: path ∧ '#' ∉ path := by
    have hfragment := not_mem_target (show Percent.IsSeparator '#' by decide) (by decide) c
    rw [toList_target, List.cons_append] at hfragment ⊢
    exact ⟨_, rfl, fun hmem => hfragment (List.mem_cons_of_mem _ hmem)⟩
  obtain ⟨path, htarget, hpath⟩ := htarget
  have hquery : c.query.isEmpty = false := by
    have hfields := Percent.formQuery_ne_nil hparameters
    simpa [query] using hfields
  have hurl : (c.url service).toList = service.scheme.toList ++
      ':' :: '/' :: '/' :: (service.renderAuthority.toList ++ c.target.toList) := by
    rw [url, ServiceUrl.render, hquery, target]
    simp [String.toList_append]
  rw [hurl, htarget]
  exact h.split?_append hpath

/-- The commands that a control plane gives. -/
inductive Issued : Command → Prop where
  | load (name path : String) (loadCsv : Bool) : Issued (.load name path loadCsv)
  | unload (name : String) : Issued (.unload name)
  | erase (name : String) : Issued (.erase name)

theorem Issued.parameters_ne_nil (h : c.Issued) : c.parameters ≠ [] := by
  cases h <;> exact List.cons_ne_nil _ _

theorem name_injective {operation other : Operation} (h : operation.name = other.name) :
    operation = other := by
  revert h
  cases operation <;> cases other <;> decide

/-- Commands with the same request line are the same. -/
theorem eq_of_requestLine_eq {c c' : Command} (hc : c.parameters ≠ []) (hc' : c'.parameters ≠ [])
    (h : c.requestLine = c'.requestLine) : c = c' := by
  have hread := readLine?_requestLine hc
  rw [h, readLine?_requestLine hc', Option.some_inj, Prod.mk.injEq] at hread
  obtain ⟨operation, parameters⟩ := c
  obtain ⟨operation', parameters'⟩ := c'
  obtain ⟨hname, rfl⟩ := hread
  cases name_injective hname
  rfl

/-- A load has its arguments among its parameters. -/
theorem load_inj {name path name' path' : String} {loadCsv loadCsv' : Bool}
    (h : load name path loadCsv = load name' path' loadCsv') :
    name = name' ∧ path = path' ∧ loadCsv = loadCsv' := by
  have hparameters := congrArg parameters h
  simp only [load, List.cons.injEq, Prod.mk.injEq, true_and, and_true] at hparameters
  obtain ⟨hname, hpath, hcsv⟩ := hparameters
  refine ⟨hname, hpath, ?_⟩
  revert hcsv
  cases loadCsv <;> cases loadCsv' <;> decide

end Command

namespace Http

/-- A transport that keeps the text of each request. -/
def recorded (service : ServiceUrl) (answers : Command → Reply) :
    Command → StateM (List String) Reply := fun c sent => (answers c, sent ++ [request service c])

/-- The requests that a call on the control plane of a service sends, whatever is answered. -/
def sent (service : ServiceUrl) (answers : Command → Reply)
    (call : ControlPlane (StateM (List String)) →
      StateM (List String) (Except SessionError String)) : List String :=
  ((call (.ofTransport service (recorded service answers) fun _ => pure ())).run []).2

end Http

namespace Command

variable {c : Command}

/-- A command is sent as one request. -/
theorem run_send (service : ServiceUrl) (answers : Command → Reply) (sent : List String) :
    ((c.send service (Http.recorded service answers) fun _ => pure ()).run sent).2 =
      sent ++ [Http.request service c] := by
  have hrecorded : ∀ {α : Type} (f : Reply → StateM (List String) α),
      (Http.recorded service answers c >>= f).run sent =
        (f (answers c)).run (sent ++ [Http.request service c]) := fun _ => rfl
  rw [send, pure_bind, hrecorded]
  cases c.answered? service (answers c) <;> rfl

/-- What a service reads of a call that sends one command. -/
theorem sent_send (service : ServiceUrl) (answers : Command → Reply)
    {call : ControlPlane (StateM (List String)) →
      StateM (List String) (Except SessionError String)}
    (hcall : ∀ transport, call (.ofTransport service transport fun _ => pure ()) =
      c.send service transport fun _ => pure ()) (hparameters : c.parameters ≠ []) :
    (Http.sent service answers call).map Http.asked? =
      [some (c.operation.name, c.parameters)] := by
  rw [Http.sent, hcall, run_send, List.nil_append, List.map_singleton,
    asked?_request service hparameters]

/-- Calls on the control plane of a service arrive as they were given: each sends one request, and
what a service reads of it is the operation and its parameters. -/
structure Faithful (service : ServiceUrl) : Prop where
  load : ∀ answers name path loadCsv,
    (Http.sent service answers fun control => control.load name path loadCsv).map Http.asked? =
      [some ("load", [("name", name), ("path", path),
        ("loadCSV", if loadCsv then "true" else "false")])]
  unload : ∀ answers name,
    (Http.sent service answers fun control => control.unload name).map Http.asked? =
      [some ("unload", [("name", name)])]
  erase : ∀ answers name,
    (Http.sent service answers fun control => control.erase name).map Http.asked? =
      [some ("erase", [("name", name)])]
  /-- Other commands have other request lines, and so do other arguments. -/
  distinct : ∀ c c', Issued c → Issued c' → c.requestLine = c'.requestLine → c = c'
  arguments : ∀ name path loadCsv name' path' loadCsv',
    (Command.load name path loadCsv).requestLine = (Command.load name' path' loadCsv').requestLine →
      name = name' ∧ path = path' ∧ loadCsv = loadCsv'
  /-- Nothing of the authority comes into the target, and nothing of the target into the
  authority or a fragment. -/
  url : ∀ c, Issued c → ServiceUrl.split? (c.url service).toList =
    some (service.scheme.toList, service.renderAuthority.toList, c.target.toList)

/-- **Commands carry their parameters faithfully** to every service that can be connected to,
whatever texts they are. -/
theorem faithful_of_connect {serverUrl : String} {service : ServiceUrl}
    (hconnect : connect serverUrl = .ok service) : Faithful service := by
  have hnormal : service.Normal := by
    rw [connect] at hconnect
    split at hconnect
    · next found hparse =>
      cases hconnect
      exact ServiceUrl.normal_of_parse hparse
    · cases hconnect
  exact
    { load := fun answers name path loadCsv =>
        @sent_send (.load name path loadCsv) service answers _ (fun _ => rfl) (List.cons_ne_nil _ _)
      unload := fun answers name =>
        @sent_send (.unload name) service answers _ (fun _ => rfl) (List.cons_ne_nil _ _)
      erase := fun answers name =>
        @sent_send (.erase name) service answers _ (fun _ => rfl) (List.cons_ne_nil _ _)
      distinct := fun _ _ hc hc' => eq_of_requestLine_eq hc.parameters_ne_nil hc'.parameters_ne_nil
      arguments := fun _ _ _ _ _ _ h =>
        load_inj (eq_of_requestLine_eq (List.cons_ne_nil _ _) (List.cons_ne_nil _ _) h)
      url := fun _ hc => split?_url hnormal hc.parameters_ne_nil }

/-- A base URL with user info, a query and a fragment, and names of separators. -/
theorem faithful_of_connect_separators :
    ∃ service, connect "http://me:a%2Fb@[::1]:3000?name=x&path=y#z" = .ok service ∧
      Faithful service ∧
      Http.sent service (fun _ => .answer 200 "" true)
          (fun control => control.load "a&b=c d" "x?y#z+%41\r\n/é" true) =
        ["GET /load?name=a%26b%3Dc+d&path=x%3Fy%23z%2B%2541%0D%0A%2F%C3%A9&loadCSV=true HTTP/1.1" ++
          "\r\nHost: [::1]:3000\r\nAccept: */*\r\nConnection: close\r\n\r\n"] := by
  have hconnect : connect "http://me:a%2Fb@[::1]:3000?name=x&path=y#z" =
      .ok ⟨"http", "me:a%2Fb@", .ipv6 [0, 0, 0, 0, 0, 0, 0, 1], some 3000⟩ := by
    decide +kernel
  exact ⟨_, hconnect, faithful_of_connect hconnect, by decide +kernel⟩

end Command

end FlatTree
