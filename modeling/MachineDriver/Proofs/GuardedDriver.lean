import MachineDriver.Cluster.World
import MachineDriver.Proofs.Routing
import MachineDriver.Proofs.Session

set_option autoImplicit false

/-!
# The server is the guarded driver

Two levels are compared. `Config.Grants` says from outside which command a request has a right to,
if any, and `Command.Drives` says what it means to carry a command out: one operation of the driver
runs as it stands and its outcome is reported. The guarded driver does this with every request and
nothing else. `Service.session_iff_guarded` says that the sessions of a server are those of the
guarded driver.

Both levels are tied together once for each guard, then for the reading of a request
(`Command.ofRequest_eq_ok_iff`), for its acceptance (`Service.accept_eq_ok_iff`) and for the
performance of a command (`Command.runs_perform_iff`). -/

namespace MachineDriver

theorem except_bind_eq_ok_iff {ε α β : Type} {x : Except ε α} {f : α → Except ε β} {v : β} :
    x >>= f = .ok v ↔ ∃ u, x = .ok u ∧ f u = .ok v := by
  cases x with
  | error e => exact ⟨nofun, nofun⟩
  | ok u => exact ⟨fun h => ⟨u, rfl, h⟩, fun ⟨_, hu, h⟩ => by cases hu; exact h⟩

namespace Command

/-! ## What a request asks for -/

/-- A request carries a message: it says that it carries JSON, its content is short enough, and it
    is read as the message. -/
structure Carries {α : Type} (codec : Json.Codec α) (r : Request) (m : α) : Prop where
  isJson : carriesJson r = true
  fits : r.body.length ≤ maxLength
  isRead : Json.readText codec.read r.body = .ok m

/-- A request names a machine by a segment of its path, in a text that is not blank, and carries
    complete credentials. -/
structure NamesMachine (segment : List Char) (r : Request) (name : String)
    (credentials : Credentials) : Prop where
  decodes : Text.Percent.decode (String.ofList segment) = .ok name
  notBlank : Text.trim name ≠ ""
  carries : ∃ m, Carries MachineMessage.codec r m ∧ credentials = .ofSecret m.secret
  complete : credentials.validate = .ok ()

/-- A request to an endpoint asks for a command: it says all that is needed, and the command takes
    the name, the specification and the credentials as they are given. -/
def Asks (r : Request) : Endpoint → Command → Prop
  | .create, command => ∃ m, Carries CreateMessage.codec r m
      ∧ Text.trim m.machineName ≠ ""
      ∧ m.spec.validate = .ok ()
      ∧ (Credentials.ofSecret m.secret).validate = .ok ()
      ∧ command = .create m.machineName m.spec (.ofSecret m.secret)
  | .list, command => ∃ m, Carries ListMessage.codec r m
      ∧ (Credentials.ofSecret m.secret).validate = .ok ()
      ∧ command = .list m.spec (.ofSecret m.secret)
  | .delete segment, command => ∃ name credentials, NamesMachine segment r name credentials
      ∧ command = .delete name credentials
  | .status segment, command => ∃ name credentials, NamesMachine segment r name credentials
      ∧ command = .status name credentials
  | .shutdown segment, command => ∃ name credentials, NamesMachine segment r name credentials
      ∧ command = .shutdown name credentials

/-! ## Guards -/

theorem readMessage_eq_ok_iff {α : Type} {codec : Json.Codec α} {r : Request} {m : α} :
    readMessage codec r = .ok m ↔ Carries codec r m := by
  unfold readMessage
  constructor
  · intro h
    split at h
    · cases h
    · rename_i hjson
      split at h
      · cases h
      · rename_i hlength
        split at h
        · rename_i hread
          cases h
          exact ⟨by simpa using hjson, Nat.not_lt.mp hlength, hread⟩
        · cases h
  · rintro ⟨hjson, hlength, hread⟩
    rw [hjson, if_neg (by decide), if_neg (Nat.not_lt.mpr hlength), hread]

theorem readSegment_eq_ok_iff {segment : List Char} {name : String} :
    readSegment segment = .ok name ↔ Text.Percent.decode (String.ofList segment) = .ok name := by
  unfold readSegment
  split
  · rename_i hdecode
    rw [hdecode, Except.ok.injEq, Except.ok.injEq]
  · rename_i hdecode
    rw [hdecode]
    exact ⟨nofun, nofun⟩

theorem requireName_eq_ok_iff {name : String} {u : Unit} :
    requireName name = .ok u ↔ Text.trim name ≠ "" := by
  rw [requireName, ne_eq, ← Text.isBlankText_iff]
  split <;> simp_all

theorem require_eq_ok_iff {α : Type} {outcome : Outcome α} {v : α} :
    require outcome = .ok v ↔ outcome = .ok v := by
  cases outcome with
  | ok u => rw [require, Except.ok.injEq, Except.ok.injEq]
  | error e => exact ⟨nofun, nofun⟩

theorem requireCredentials_eq_ok_iff {s : Secret} {credentials : Credentials} :
    requireCredentials s = .ok credentials
      ↔ credentials = .ofSecret s ∧ credentials.validate = .ok () := by
  rw [requireCredentials, except_bind_eq_ok_iff]
  constructor
  · rintro ⟨_, hvalid, h⟩
    cases h
    exact ⟨rfl, require_eq_ok_iff.mp hvalid⟩
  · rintro ⟨rfl, hvalid⟩
    exact ⟨(), require_eq_ok_iff.mpr hvalid, rfl⟩

/-- The order in which the guards are tried decides only how a request is refused, so it does not
    show in what is accepted. -/
theorem readNamed_eq_ok_iff {segment : List Char} {r : Request} {name : String}
    {credentials : Credentials} :
    readNamed segment r = .ok (name, credentials) ↔ NamesMachine segment r name credentials := by
  simp only [readNamed, except_bind_eq_ok_iff, readSegment_eq_ok_iff, readMessage_eq_ok_iff,
    requireName_eq_ok_iff, requireCredentials_eq_ok_iff]
  constructor
  · rintro ⟨_, hdecodes, m, hcarries, _, hname, _, ⟨rfl, hcomplete⟩, h⟩
    cases h
    exact ⟨hdecodes, hname, ⟨m, hcarries, rfl⟩, hcomplete⟩
  · rintro ⟨hdecodes, hname, ⟨m, hcarries, rfl⟩, hcomplete⟩
    exact ⟨name, hdecodes, m, hcarries, (), hname, _, ⟨rfl, hcomplete⟩, rfl⟩

/-- The reading of a request to an endpoint for one machine. -/
theorem bind_readNamed_eq_ok_iff {segment : List Char} {r : Request}
    {f : String → Credentials → Command} {command : Command} :
    (do let (name, credentials) ← readNamed segment r; return f name credentials) = .ok command
      ↔ ∃ name credentials, NamesMachine segment r name credentials
        ∧ command = f name credentials := by
  rw [except_bind_eq_ok_iff]
  constructor
  · rintro ⟨⟨name, credentials⟩, hnamed, h⟩
    cases h
    exact ⟨name, credentials, readNamed_eq_ok_iff.mp hnamed, rfl⟩
  · rintro ⟨name, credentials, hnamed, rfl⟩
    exact ⟨(name, credentials), readNamed_eq_ok_iff.mpr hnamed, rfl⟩

/-- **A request is read** as a command exactly when it asks for this command. -/
theorem ofRequest_eq_ok_iff {e : Endpoint} {r : Request} {command : Command} :
    ofRequest e r = .ok command ↔ Asks r e command := by
  cases e with
  | create =>
      simp only [ofRequest, Asks, except_bind_eq_ok_iff, readMessage_eq_ok_iff,
        requireName_eq_ok_iff, require_eq_ok_iff, requireCredentials_eq_ok_iff]
      constructor
      · rintro ⟨m, hcarries, _, hname, _, hvalid, _, ⟨rfl, hcomplete⟩, h⟩
        cases h
        exact ⟨m, hcarries, hname, hvalid, hcomplete, rfl⟩
      · rintro ⟨m, hcarries, hname, hvalid, hcomplete, rfl⟩
        exact ⟨m, hcarries, (), hname, (), hvalid, _, ⟨rfl, hcomplete⟩, rfl⟩
  | list =>
      simp only [ofRequest, Asks, except_bind_eq_ok_iff, readMessage_eq_ok_iff,
        requireCredentials_eq_ok_iff]
      constructor
      · rintro ⟨m, hcarries, _, ⟨rfl, hcomplete⟩, h⟩
        cases h
        exact ⟨m, hcarries, hcomplete, rfl⟩
      · rintro ⟨m, hcarries, hcomplete, rfl⟩
        exact ⟨m, hcarries, _, ⟨rfl, hcomplete⟩, rfl⟩
  | delete segment => exact bind_readNamed_eq_ok_iff
  | status segment => exact bind_readNamed_eq_ok_iff
  | shutdown segment => exact bind_readNamed_eq_ok_iff

/-! ## Performance -/

/-- A response gives a document under a code, and says nothing else. -/
structure Says (response : Response) (code : Nat) (document : Json) : Prop where
  code_eq : response.status.code = code
  content_eq : response.content = .json document
  allow_eq : response.allow = none
  isWhole : response.headOnly = false

/-- The code under which an operation that fails is reported: what was asked for is missing or
    wrong, a document cannot be written, or the cluster does not do its part. -/
def failureCode : DriverError → Nat
  | .machineNotFound _ => 404
  | .invalidSpec _ | .invalidCredentials _ | .invalidProviderId _ | .userData _ => 400
  | .networkData _ => 500
  | .client _ | .serverVersion _ | .object .. | .list .. => 502

/-- How the outcome of an operation is reported: a success under its code, with the document of its
    value, and an error under its own code, with its text. -/
def Reports {α : Type} (success : Nat) (document : α → Json) : Outcome α → Response → Prop
  | .ok v, response => Says response success (document v)
  | .error e, response => Says response (failureCode e) (.object [("error", .string e.message)])

/-- An operation runs with some calls and its outcome is reported. -/
def RunsAndReports {α : Type} (operation : Program (Outcome α)) (success : Nat)
    (document : α → Json) (events : List Event) (response : Response) : Prop :=
  ∃ outcome, operation.Runs events outcome ∧ Reports success document outcome response

/-- A command is carried out: the operation of the driver that it stands for runs, and its outcome
    is reported, which is the identifier of a machine or the names of machines by their
    identifiers. -/
def Drives (policy : RetryPolicy) : Command → List Event → Response → Prop
  | .create name spec credentials =>
    RunsAndReports (createMachine name spec credentials) 201
      fun id => .object [("providerId", .string id)]
  | .list spec credentials =>
    RunsAndReports (listMachines spec credentials) 200
      fun machines => .object
        [("machines", .object (machines.entries.map fun (id, name) => (id, .string name)))]
  | .delete name credentials =>
    RunsAndReports (deleteMachine name credentials) 200
      fun id => .object [("providerId", .string id)]
  | .status name credentials =>
    RunsAndReports (machineStatus name credentials) 200
      fun id => .object [("providerId", .string id)]
  | .shutdown name credentials =>
    RunsAndReports (shutdownMachine policy name credentials) 200
      fun id => .object [("providerId", .string id)]

theorem status_eq_of_code_eq {a b : Status} (h : a.code = b.code) : a = b := by
  cases a <;> cases b <;> first | rfl | exact absurd h (by decide)

theorem code_statusOf (e : DriverError) : (ServerError.statusOf e).code = failureCode e := by
  cases e <;> rfl

theorem says_code_iff {response : Response} {status : Status} {document : Json} :
    Says response status.code document
      ↔ response = { status := status, content := .json document } := by
  constructor
  · obtain ⟨status', content, allow, headOnly⟩ := response
    rintro ⟨hcode, rfl, rfl, rfl⟩
    obtain rfl : status' = status := status_eq_of_code_eq hcode
    rfl
  · rintro rfl
    exact ⟨rfl, rfl, rfl, rfl⟩

theorem respondWith_eq_iff {α : Type} {success : Status} {write : α → Json} {outcome : Outcome α}
    {response : Response} :
    response = respondWith success write outcome ↔ Reports success.code write outcome response := by
  cases outcome with
  | ok v => exact says_code_iff.symm
  | error e =>
      rw [Reports, ← code_statusOf]
      exact says_code_iff.symm

theorem runs_respondWith_iff {α : Type} {success : Status} {write : α → Json}
    {p : Program (Outcome α)} {events : List Event} {response : Response} :
    (do return respondWith success write (← p) : Program Response).Runs events response
      ↔ RunsAndReports p success.code write events response := by
  simp only [RunsAndReports, Program.runs_bind_iff, Program.runs_pure_iff, respondWith_eq_iff]
  constructor
  · rintro ⟨first, rest, outcome, rfl, hruns, rfl, hreports⟩
    rw [List.append_nil]
    exact ⟨outcome, hruns, hreports⟩
  · rintro ⟨outcome, hruns, hreports⟩
    exact ⟨events, [], outcome, (List.append_nil events).symm, hruns, rfl, hreports⟩

/-- **A command is performed** by carrying it out. -/
theorem runs_perform_iff {policy : RetryPolicy} {command : Command} {events : List Event}
    {response : Response} :
    (command.perform policy).Runs events response ↔ command.Drives policy events response := by
  cases command <;> exact runs_respondWith_iff

end Command

/-! ## The guarded driver -/

/-- A request has a right to a command: its path is the path of an endpoint and its method the
    method of this endpoint, it shows the token that the server wants, and it asks for the
    command. -/
def Config.Grants (c : Config) (r : Request) (command : Command) : Prop :=
  ∃ e : Endpoint, e.IsProper ∧ r.path = e.path ∧ r.method = e.method ∧ c.admits r = true
    ∧ command.Asks r e

namespace Service

/-- **A request is accepted** exactly with the command that it has a right to. -/
theorem accept_eq_ok_iff {c : Config} {r : Request} {command : Command} :
    accept c r = .ok command ↔ c.Grants r command := by
  unfold accept
  constructor
  · intro h
    split at h
    · cases h
    · cases h
    · rename_i e hroute
      obtain ⟨hproper, hpath⟩ := Route.ofPath?_eq_endpoint_iff.mp hroute
      split at h
      · rename_i hmethod
        split at h
        · rename_i hadmits
          exact ⟨e, hproper, hpath, hmethod, hadmits, Command.ofRequest_eq_ok_iff.mp h⟩
        · cases h
      · cases h
  · rintro ⟨e, hproper, hpath, hmethod, hadmits, hasks⟩
    rw [hpath, Route.ofPath?_path hproper]
    simp only [hmethod, hadmits, if_true]
    exact Command.ofRequest_eq_ok_iff.mpr hasks

/-- A request has a right to one command at most. -/
theorem grants_unique {c : Config} {r : Request} {a b : Command} (ha : c.Grants r a)
    (hb : c.Grants r b) : a = b := by
  rw [← accept_eq_ok_iff] at ha hb
  exact Except.ok.inj (ha.symm.trans hb)

/-- What the guarded driver does with a request: it carries out the command that the request has a
    right to, if there is one, and else answers with a refusal and leaves everything as it is. -/
inductive Guarded {σ : Type} (refusal : Request → Response) (step : σ → Event → σ → Prop)
    (c : Config) : σ → Transaction → σ → Prop where
  | driven {s t : σ} {r : Request} {command : Command} {events : List Event} {response : Response}
      (grants : c.Grants r command) (drives : command.Drives c.retryPolicy events response)
      (path : Path step s events t) : Guarded refusal step c s ⟨r, events, response⟩ t
  | refused {s : σ} {r : Request} (denied : ∀ command, ¬ c.Grants r command) :
      Guarded refusal step c s ⟨r, [], refusal r⟩ s

/-- There are responses for all requests that have no right to a command, with which these are
    refused. -/
theorem exists_refusal (c : Config) : ∃ refusal : Request → Response,
    ∀ r, (∀ command, ¬ c.Grants r command) → Refuses c r (refusal r) := by
  have hresponse (r : Request) :
      ∃ response, (∀ command, ¬ c.Grants r command) → Refuses c r response := by
    cases haccept : accept c r with
    | ok command => exact ⟨default, fun h => absurd (accept_eq_ok_iff.mp haccept) (h command)⟩
    | error response => exact ⟨_, fun _ => refuses_of_accept haccept⟩
  exact Classical.skolem.mp hresponse

/-- A transaction of the server is one of the guarded driver. -/
theorem serves_iff_guarded {σ : Type} {refusal : Request → Response} {c : Config}
    (hrefusal : ∀ r, (∀ command, ¬ c.Grants r command) → Refuses c r (refusal r))
    {step : σ → Event → σ → Prop} {s t : σ} {x : Transaction} :
    Serves step c s x t ↔ Guarded refusal step c s x t := by
  constructor
  · intro h
    by_cases hgrants : ∃ command, c.Grants x.request command
    · obtain ⟨command, hgrants⟩ := hgrants
      obtain ⟨hruns, hpath⟩ := (serves_iff_of_accept (accept_eq_ok_iff.mpr hgrants)).mp h
      exact .driven hgrants (Command.runs_perform_iff.mp hruns) hpath
    · have hdenied := not_exists.mp hgrants
      obtain ⟨r, events, response⟩ := x
      obtain ⟨rfl, rfl, rfl⟩ := (hrefusal r hdenied σ step s t events response).mp h
      exact .refused hdenied
  · rintro (⟨hgrants, hdrives, hpath⟩ | hdenied)
    · exact (serves_iff_of_accept (accept_eq_ok_iff.mpr hgrants)).mpr
        ⟨Command.runs_perform_iff.mpr hdrives, hpath⟩
    · exact (hrefusal _ hdenied σ step s s _ _).mpr ⟨rfl, rfl, rfl⟩

/-- **The server is the guarded driver.** A request has a right to one command at most. There are
    refusals, which depend on the configuration and the request only, such that the sessions of the
    server are those of the guarded driver, whatever the cluster is. And there is a session for
    every list of requests and every cluster that answers. -/
theorem session_iff_guarded (c : Config) :
    (∀ r a b, c.Grants r a → c.Grants r b → a = b)
      ∧ (∃ refusal : Request → Response,
        ∀ (σ : Type) (step : σ → Event → σ → Prop) (s t : σ) (session : List Transaction),
          Path (Serves step c) s session t ↔ Path (Guarded refusal step c) s session t)
      ∧ ∀ (σ : Type) (answer : (c : Call) → σ → c.Answer × σ) (requests : List Request) (s : σ),
        ∃ session t, session.map Transaction.request = requests
          ∧ Path (Serves (fun s e t => answer e.call s = (e.answer, t)) c) s session t := by
  obtain ⟨refusal, hrefusal⟩ := exists_refusal c
  refine ⟨fun _ _ _ => grants_unique, ⟨refusal, fun _ _ _ _ _ => ?_⟩, fun σ answer requests s => ?_⟩
  · exact path_congr fun _ _ _ => serves_iff_guarded hrefusal
  · exact exists_session answer c requests s

/-! ## A session -/

section Sample

variable {α σ : Type} {answer : (c : Call) → σ → c.Answer × σ} {s : σ}

theorem accept_of_toOption {c : Config} {r : Request} {command : Command}
    (h : (accept c r).toOption = some command) : accept c r = .ok command := by
  cases haccept : accept c r with
  | ok command' =>
      rw [haccept] at h
      exact congrArg Except.ok (Option.some.inj h)
  | error response =>
      rw [haccept] at h
      cases h

theorem run_respondWith {p : Program (Outcome α)} {success : Status} {write : α → Json}
    {outcome : Outcome α} (h : (p.run answer s).1 = some outcome) :
    ((do return Command.respondWith success write (← p) : Program Response).run answer s).1
      = some (Command.respondWith success write outcome) := by
  rw [Program.run_bind, ← Prod.eta (p.run answer s), h]
  rfl

/-- A run of a command serves the request that is accepted with it. -/
theorem exists_serves_of_accept {c : Config} {r : Request} {command : Command} {response : Response}
    (h : accept c r = .ok command)
    (hrun : ((command.perform c.retryPolicy).run answer s).1 = some response) :
    ∃ events, Serves (fun s e t => answer e.call s = (e.answer, t)) c s ⟨r, events, response⟩
      ((command.perform c.retryPolicy).run answer s).2 := by
  have hrespond : respond c r = command.perform c.retryPolicy := by
    rw [respond, h]
  rw [← hrespond] at hrun ⊢
  exact exists_serves hrun

end Sample

/-- A server that wants no token. -/
def unguarded : Config :=
  ⟨Config.defaultAddress, none, none⟩

/-- A request with a document that has a secret, after some other fields. -/
def sampleRequest (target fields : String) : Request :=
  { method := "POST"
    target := target
    headers := [("Content-Type", Text.Utf8.encode "application/json")]
    body := Text.Utf8.encode ("\x7b" ++ fields
      ++ "\"secret\":\x7b\"data\":\x7b\"kubeconfig\":\"eA==\",\"userData\":\"eA==\"\x7d\x7d\x7d") }

/-- A request to create a machine. -/
def sampleCreation : Request :=
  sampleRequest "/machines" ("\"machineName\":\"a\",\"providerSpec\":\x7b"
    ++ "\"sourceURL\":\"u\",\"storageClassName\":\"s\",\"pvcSize\":\"1Gi\","
    ++ "\"resources\":\x7b\"requests\":\x7b\"memory\":\"4Gi\"\x7d\x7d\x7d,")

/-- A machine is created and listed, and another one that does not exist cannot be stopped. -/
theorem session_creates_lists_and_fails :
    ∃ (refusal : Request → Response) (session : List Transaction) (t : World),
      Path (Guarded refusal (fun w e w' => World.answer e.call w = (e.answer, w')) unguarded) {}
          session t
        ∧ (∀ x ∈ session, ∃ command, unguarded.Grants x.request command)
        ∧ session.map Transaction.response
          = [{ status := .created
               content := .json (.object [("providerId", .string "kubevirt://a")]) },
             { status := .ok
               content := .json (.object [("machines", .object [("kubevirt://a", .string "a")])]) },
             { status := .notFound
               content := .json (.object [("error", .string "machine b not found")]) }] := by
  let credentials : Credentials := ⟨.ofList [("kubeconfig", [0x78]), ("userData", [0x78])]⟩
  let spec : MachineSpec :=
    { sourceUrl := "u"
      storageClassName := "s"
      pvcSize := "1Gi"
      resources := { requests := .ofList [("memory", "4Gi")] } }
  let listing := sampleRequest "/machines:list" ""
  let stopping := sampleRequest "/machines/b/shutdown" ""
  have hcreate : accept unguarded sampleCreation = .ok (.create "a" spec credentials) :=
    accept_of_toOption (by decide +kernel)
  have hlist : accept unguarded listing = .ok (.list {} credentials) :=
    accept_of_toOption (by decide +kernel)
  have hstop : accept unguarded stopping = .ok (.shutdown "b" credentials) :=
    accept_of_toOption (by decide +kernel)
  let first : World :=
    (((Command.create "a" spec credentials).perform unguarded.retryPolicy).run World.answer {}).2
  let second : World :=
    (((Command.list {} credentials).perform unguarded.retryPolicy).run World.answer first).2
  have hcreated : ((createMachine "a" spec credentials).run World.answer {}).1
      = some (.ok "kubevirt://a") := by decide +kernel
  have hlisted : ((listMachines {} credentials).run World.answer first).1
      = some (.ok (.ofList [("kubevirt://a", "a")])) := by decide +kernel
  have hfailed : ((shutdownMachine {} "b" credentials).run World.answer second).1
      = some (.error (.machineNotFound "b")) := by decide +kernel
  obtain ⟨events, hfirst⟩ := exists_serves_of_accept hcreate (run_respondWith hcreated)
  obtain ⟨events', hsecond⟩ := exists_serves_of_accept hlist (run_respondWith hlisted)
  obtain ⟨events'', hthird⟩ := exists_serves_of_accept hstop (run_respondWith hfailed)
  have hsession : Path (Serves (fun w e w' => World.answer e.call w = (e.answer, w')) unguarded) {}
      [⟨sampleCreation, events, _⟩, ⟨listing, events', _⟩, ⟨stopping, events'', _⟩] _ :=
    ⟨_, hfirst, _, hsecond, _, hthird, rfl⟩
  obtain ⟨-, ⟨refusal, hguarded⟩, -⟩ := session_iff_guarded unguarded
  refine ⟨refusal, _, _, (hguarded _ _ _ _ _).mp hsession, fun x hx => ?_, rfl⟩
  simp only [List.mem_cons, List.not_mem_nil, or_false] at hx
  rcases hx with rfl | rfl | rfl
  · exact ⟨_, accept_eq_ok_iff.mp hcreate⟩
  · exact ⟨_, accept_eq_ok_iff.mp hlist⟩
  · exact ⟨_, accept_eq_ok_iff.mp hstop⟩

end Service

end MachineDriver
