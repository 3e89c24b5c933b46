import MachineDriver.Proofs.GuardedDriver
import MachineDriver.Proofs.Percent

set_option autoImplicit false

/-!
# Routes keep the names of machines

A machine is named in a path by one segment: its name, with every character percent-encoded that
would end the segment or could be taken for an escape. Whatever the name is, the segment is not
empty and has no slash, so that the path is the path of one endpoint, and the segment is read back
as the name.

`Config.grants_iff_of_isTo` says which command a request to such a path has a right to, and the main
statement, `Service.routes_keep_names`, what the server makes of it. -/

namespace MachineDriver

/-! ## Paths and queries -/

/-- A request is sent to a path, perhaps with a query. -/
def Request.IsTo (r : Request) (path : List Char) : Prop :=
  ∃ query, r.target.toList = path ++ query ∧ (query = [] ∨ ∃ rest, query = '?' :: rest)

theorem Request.path_of_isTo {r : Request} {path : List Char} (h : r.IsTo path)
    (hpath : ∀ c ∈ path, c ≠ '?' ∧ c ≠ '#') : r.path = path := by
  obtain ⟨query, htarget, hquery⟩ := h
  have hend : query.takeWhile (fun c => c ≠ '?' ∧ c ≠ '#') = [] := by
    rcases hquery with rfl | ⟨rest, rfl⟩
    · rfl
    · exact List.takeWhile_cons_of_neg (by simp)
  rw [Request.path, htarget, List.takeWhile_append_of_pos fun c hc => decide_eq_true (hpath c hc),
    hend, List.append_nil]

namespace Endpoint

theorem inner_of_all {cs : List Char} (h : (cs.all fun c => c ≠ '?' ∧ c ≠ '#') = true) :
    ∀ c ∈ cs, c ≠ '?' ∧ c ≠ '#' := fun c hc =>
  of_decide_eq_true (List.all_eq_true.mp h c hc)

/-- The path of an endpoint has a character that ends a path only if the segment of the machine
    has it. -/
theorem inner_of_mem_path {e : Endpoint}
    (h : ∀ segment, e.segment? = some segment → ∀ c ∈ segment, c ≠ '?' ∧ c ≠ '#') :
    ∀ c ∈ e.path, c ≠ '?' ∧ c ≠ '#' := by
  have hmachines : ∀ c ∈ "/machines/".toList, c ≠ '?' ∧ c ≠ '#' := inner_of_all (by decide)
  have hstatus : ∀ c ∈ '/' :: "status".toList, c ≠ '?' ∧ c ≠ '#' := inner_of_all (by decide)
  have hshutdown : ∀ c ∈ '/' :: "shutdown".toList, c ≠ '?' ∧ c ≠ '#' := inner_of_all (by decide)
  cases e with
  | create => exact inner_of_all (by decide : ("/machines".toList.all _) = true)
  | list => exact inner_of_all (by decide : ("/machines:list".toList.all _) = true)
  | delete segment =>
      intro c hc
      rcases List.mem_append.mp hc with hc | hc
      · exact hmachines c hc
      · exact h segment rfl c hc
  | status segment =>
      intro c hc
      rcases List.mem_append.mp hc with hc | hc
      · exact hmachines c hc
      · rcases List.mem_append.mp hc with hc | hc
        · exact h segment rfl c hc
        · exact hstatus c hc
  | shutdown segment =>
      intro c hc
      rcases List.mem_append.mp hc with hc | hc
      · exact hmachines c hc
      · rcases List.mem_append.mp hc with hc | hc
        · exact h segment rfl c hc
        · exact hshutdown c hc

/-- Different endpoints have different paths. -/
theorem eq_of_path_eq {e e' : Endpoint} (h : e.IsProper) (h' : e'.IsProper)
    (hpath : e.path = e'.path) : e = e' := by
  have hroute := Route.ofPath?_path h
  rw [hpath, Route.ofPath?_path h'] at hroute
  cases hroute
  rfl

end Endpoint

/-! ## Operations on one machine -/

/-- An operation for which a request names the machine in its path. -/
inductive NamedOperation where
  | delete
  | status
  | shutdown
  deriving DecidableEq, Repr

namespace NamedOperation

/-- The endpoint of an operation on the machine of a segment. -/
def endpoint : NamedOperation → List Char → Endpoint
  | .delete => .delete
  | .status => .status
  | .shutdown => .shutdown

/-- The method of an operation. -/
def method : NamedOperation → String
  | .delete => "DELETE"
  | .status => "POST"
  | .shutdown => "POST"

/-- An operation as a command. -/
def command : NamedOperation → String → Credentials → Command
  | .delete => .delete
  | .status => .status
  | .shutdown => .shutdown

@[simp] theorem segment?_endpoint (op : NamedOperation) (segment : List Char) :
    (op.endpoint segment).segment? = some segment := by
  cases op <;> rfl

@[simp] theorem method_endpoint (op : NamedOperation) (segment : List Char) :
    (op.endpoint segment).method = op.method := by
  cases op <;> rfl

theorem asks_iff {op : NamedOperation} {segment : List Char} {r : Request} {command : Command} :
    command.Asks r (op.endpoint segment) ↔ ∃ name credentials,
      Command.NamesMachine segment r name credentials ∧ command = op.command name credentials := by
  cases op <;> exact Iff.rfl

end NamedOperation

/-! ## Encoded names -/

/-- An encoding by which every text becomes one segment of a path: neither what ends a segment or a
    path nor the percent sign is left as it is. -/
def Text.Percent.MakesSegments (keep : Char → Bool) : Prop :=
  ∀ c ∈ ['/', '?', '#', '%'], keep c = false

section Encoded

open Text (Percent.MakesSegments Percent.encode)

variable {keep : Char → Bool} {op : NamedOperation} {name : String} {c : Config} {r : Request}

theorem isProper_of_encode (hkeep : Percent.MakesSegments keep) (hname : Text.trim name ≠ "") :
    (op.endpoint (Percent.encode keep name).toList).IsProper := by
  intro segment hsegment
  rw [NamedOperation.segment?_endpoint, Option.some.injEq] at hsegment
  rw [← hsegment]
  refine ⟨Text.Percent.encode_ne_nil ?_, ?_⟩
  · rintro rfl
    exact hname rfl
  · exact Text.Percent.notMem_encode (hkeep '/' (by simp)) (by decide) (by decide) name

theorem path_of_isTo_encode (hkeep : Percent.MakesSegments keep)
    (hto : r.IsTo (op.endpoint (Percent.encode keep name).toList).path) :
    r.path = (op.endpoint (Percent.encode keep name).toList).path := by
  refine Request.path_of_isTo hto (Endpoint.inner_of_mem_path fun segment hsegment d hd => ?_)
  rw [NamedOperation.segment?_endpoint, Option.some.injEq] at hsegment
  rw [← hsegment] at hd
  constructor
  · rintro rfl
    exact Text.Percent.notMem_encode (hkeep '?' (by simp)) (by decide) (by decide) name hd
  · rintro rfl
    exact Text.Percent.notMem_encode (hkeep '#' (by simp)) (by decide) (by decide) name hd

/-- A machine is named by its encoded name and by no other name. -/
theorem namesMachine_encode_iff (hkeep : Percent.MakesSegments keep) (hname : Text.trim name ≠ "")
    {other : String} {credentials : Credentials} :
    Command.NamesMachine (Percent.encode keep name).toList r other credentials
      ↔ other = name ∧ ∃ m, Command.Carries MachineMessage.codec r m
        ∧ (Credentials.ofSecret m.secret).validate = .ok ()
        ∧ credentials = .ofSecret m.secret := by
  have hdecode := Text.Percent.decode_encode (hkeep '%' (by simp)) name
  constructor
  · rintro ⟨hdecodes, -, ⟨m, hcarries, rfl⟩, hcomplete⟩
    rw [String.ofList_toList, hdecode] at hdecodes
    cases hdecodes
    exact ⟨rfl, m, hcarries, hcomplete, rfl⟩
  · rintro ⟨rfl, m, hcarries, hcomplete, rfl⟩
    exact ⟨by rw [String.ofList_toList, hdecode], hname, ⟨m, hcarries, rfl⟩, hcomplete⟩

/-- The commands of the requests to the path of an endpoint are those that it is asked for. -/
theorem Config.grants_iff_of_path {e : Endpoint} (hproper : e.IsProper) (hpath : r.path = e.path)
    {command : Command} :
    c.Grants r command ↔ r.method = e.method ∧ c.admits r = true ∧ command.Asks r e := by
  constructor
  · rintro ⟨e', hproper', hpath', hasked⟩
    obtain rfl := Endpoint.eq_of_path_eq hproper' hproper (hpath'.symm.trans hpath)
    exact hasked
  · intro hasked
    exact ⟨e, hproper, hpath, hasked⟩

/-- **The command of a request that names a machine** is the operation of its path on this machine,
    with the credentials that it carries. -/
theorem Config.grants_iff_of_isTo (hkeep : Percent.MakesSegments keep) (hname : Text.trim name ≠ "")
    (hto : r.IsTo (op.endpoint (Percent.encode keep name).toList).path) {command : Command} :
    c.Grants r command ↔ r.method = op.method ∧ c.admits r = true
      ∧ ∃ m, Command.Carries MachineMessage.codec r m
        ∧ (Credentials.ofSecret m.secret).validate = .ok ()
        ∧ command = op.command name (.ofSecret m.secret) := by
  rw [grants_iff_of_path (isProper_of_encode hkeep hname) (path_of_isTo_encode hkeep hto),
    NamedOperation.method_endpoint]
  simp only [NamedOperation.asks_iff, namesMachine_encode_iff hkeep hname]
  constructor
  · rintro ⟨hmethod, hadmits, _, _, ⟨rfl, m, hcarries, hcomplete, rfl⟩, rfl⟩
    exact ⟨hmethod, hadmits, m, hcarries, hcomplete, rfl⟩
  · rintro ⟨hmethod, hadmits, m, hcarries, hcomplete, rfl⟩
    exact ⟨hmethod, hadmits, name, _, ⟨rfl, m, hcarries, hcomplete, rfl⟩, rfl⟩

/-- The command of a request to the path of the listing is a listing. -/
theorem Config.grants_iff_of_isTo_list (hto : r.IsTo Endpoint.list.path) {command : Command} :
    c.Grants r command ↔ r.method = "POST" ∧ c.admits r = true
      ∧ ∃ m, Command.Carries ListMessage.codec r m
        ∧ (Credentials.ofSecret m.secret).validate = .ok ()
        ∧ command = .list m.spec (.ofSecret m.secret) :=
  grants_iff_of_path (e := .list) nofun
    (Request.path_of_isTo hto (Endpoint.inner_of_mem_path nofun))

end Encoded

/-! ## What the server does -/

namespace Service

/-- A server answers a request by carrying out a command. -/
def CarriesOut (c : Config) (r : Request) (command : Command) : Prop :=
  ∀ events response,
    (respond c r).Runs events response ↔ command.Drives c.retryPolicy events response

theorem carriesOut_of_grants {c : Config} {r : Request} {command : Command}
    (h : c.Grants r command) : CarriesOut c r command := by
  intro events response
  rw [respond, accept_eq_ok_iff.mpr h]
  exact Command.runs_perform_iff

/-- What a request has a right to is accepted, and nothing else is. -/
theorem accepts_of_grants_iff {α : Type} {c : Config} {r : Request} {method : String}
    {codec : Json.Codec α} {secret : α → Secret} {ask : α → Command}
    (h : ∀ command, c.Grants r command ↔ r.method = method ∧ c.admits r = true
      ∧ ∃ m, Command.Carries codec r m ∧ (Credentials.ofSecret (secret m)).validate = .ok ()
        ∧ command = ask m) :
    (∀ command, accept c r = .ok command → ∃ m, command = ask m)
      ∧ ∀ m, r.method = method → c.admits r = true → Command.Carries codec r m →
        (Credentials.ofSecret (secret m)).validate = .ok () → CarriesOut c r (ask m) := by
  constructor
  · intro command haccept
    obtain ⟨-, -, m, -, -, hcommand⟩ := (h command).mp (accept_eq_ok_iff.mp haccept)
    exact ⟨m, hcommand⟩
  · intro m hmethod hadmits hcarries hcomplete
    exact carriesOut_of_grants ((h _).mpr ⟨hmethod, hadmits, m, hcarries, hcomplete, rfl⟩)

/-- **Routes keep names.** A request whose path is that of an operation on one machine, with the
    name of the machine percent-encoded, is carried out as this operation on the machine of exactly
    this name, if it has the right method, shows the token and carries complete credentials; and it
    is never accepted as anything else. A request to the path of the listing is a listing in the
    same way. -/
theorem routes_keep_names (c : Config) (r : Request) :
    (∀ (op : NamedOperation) (keep : Char → Bool) (name : String),
        Text.Percent.MakesSegments keep → Text.trim name ≠ "" →
        r.IsTo (op.endpoint (Text.Percent.encode keep name).toList).path →
        (∀ command, accept c r = .ok command →
          ∃ m : MachineMessage, command = op.command name (.ofSecret m.secret))
        ∧ ∀ m, r.method = op.method → c.admits r = true →
          Command.Carries MachineMessage.codec r m →
          (Credentials.ofSecret m.secret).validate = .ok () →
          CarriesOut c r (op.command name (.ofSecret m.secret)))
      ∧ (r.IsTo "/machines:list".toList →
        (∀ command, accept c r = .ok command →
          ∃ m : ListMessage, command = .list m.spec (.ofSecret m.secret))
        ∧ ∀ m, r.method = "POST" → c.admits r = true →
          Command.Carries ListMessage.codec r m →
          (Credentials.ofSecret m.secret).validate = .ok () →
          CarriesOut c r (.list m.spec (.ofSecret m.secret))) := by
  constructor
  · intro op keep name hkeep hname hto
    exact accepts_of_grants_iff fun _ => Config.grants_iff_of_isTo hkeep hname hto
  · intro hto
    exact accepts_of_grants_iff fun _ => Config.grants_iff_of_isTo_list hto

theorem exists_grants_of_isOk {c : Config} {r : Request} (h : (accept c r).isOk = true) :
    ∃ command, c.Grants r command := by
  cases haccept : accept c r with
  | error response =>
      rw [haccept] at h
      cases h
  | ok command => exact ⟨command, accept_eq_ok_iff.mp haccept⟩

/-- A machine whose name has the words of other routes in it is shut down by its name, and the
    listing is a listing. -/
theorem routes_keep_name_with_slash :
    ∃ (c : Config) (r r' : Request) (spec : MachineSpec) (credentials credentials' : Credentials),
      c.apiToken = some "token"
        ∧ r.target = "/machines/list%2Fstatus/shutdown?now"
        ∧ CarriesOut c r (.shutdown "list/status" credentials)
        ∧ r'.target = "/machines:list" ∧ CarriesOut c r' (.list spec credentials') := by
  let c : Config := ⟨Config.defaultAddress, some "token", none⟩
  let document : String :=
    "\x7b\"secret\":\x7b\"data\":\x7b\"kubeconfig\":\"eA==\",\"userData\":\"eA==\"\x7d\x7d\x7d"
  let r (target : String) : Request :=
    { method := "POST"
      target := target
      headers := [("Content-Type", Text.Utf8.encode "application/json"),
        ("Authorization", Text.Utf8.encode "Bearer token")]
      body := Text.Utf8.encode document }
  have hto : (r "/machines/list%2Fstatus/shutdown?now").IsTo (NamedOperation.endpoint .shutdown
      (Text.Percent.encode Text.Percent.isAlphanumeric "list/status").toList).path :=
    ⟨"?now".toList, by decide, .inr ⟨_, rfl⟩⟩
  have hto' : (r "/machines:list").IsTo "/machines:list".toList :=
    ⟨[], by decide, .inl rfl⟩
  have hkeep : Text.Percent.MakesSegments Text.Percent.isAlphanumeric := by
    intro d hd
    simp only [List.mem_cons, List.not_mem_nil, or_false] at hd
    rcases hd with rfl | rfl | rfl | rfl <;> rfl
  have hname : Text.trim "list/status" ≠ "" := by decide
  obtain ⟨command, hgrants⟩ := exists_grants_of_isOk (c := c)
    (r := r "/machines/list%2Fstatus/shutdown?now") (by decide +kernel)
  obtain ⟨hmethod, hadmits, m, hcarries, hcomplete, -⟩ :=
    (Config.grants_iff_of_isTo hkeep hname hto).mp hgrants
  obtain ⟨command', hgrants'⟩ := exists_grants_of_isOk (c := c) (r := r "/machines:list")
    (by decide +kernel)
  obtain ⟨hmethod', hadmits', m', hcarries', hcomplete', -⟩ :=
    (Config.grants_iff_of_isTo_list hto').mp hgrants'
  exact ⟨c, _, _, _, _, _, rfl, rfl,
    ((routes_keep_names c _).1 .shutdown _ "list/status" hkeep hname hto).2 m hmethod hadmits
      hcarries hcomplete,
    rfl, ((routes_keep_names c _).2 hto').2 m' hmethod' hadmits' hcarries' hcomplete'⟩

end Service

end MachineDriver
