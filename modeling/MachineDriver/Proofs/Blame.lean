import MachineDriver.Cluster.World
import MachineDriver.Proofs.Calls
import MachineDriver.Proofs.GuardedDriver

set_option autoImplicit false

/-!
# A client error means that nothing was written

Whom a server blames for a failure tells what has happened to the cluster. `Program.Commits` says of
an operation that once it has called for a change it ends in some way only. Creation, deletion and
shutdown commit to not blaming the client, and the other operations change nothing, which gives
`Service.client_error_writes_nothing`: who is told to be at fault has changed nothing. -/

namespace MachineDriver

/-! ## Classes of statuses -/

namespace Status

/-- The status says that the client is at fault. -/
def IsClientError (status : Status) : Prop :=
  400 ≤ status.code ∧ status.code < 500

/-- The status says that the server, or what is behind it, is at fault. -/
def IsServerError (status : Status) : Prop :=
  500 ≤ status.code ∧ status.code < 600

/-- The status says that all went well. -/
def IsSuccess (status : Status) : Prop :=
  200 ≤ status.code ∧ status.code < 300

instance (status : Status) : Decidable status.IsClientError :=
  inferInstanceAs (Decidable (_ ∧ _))

instance (status : Status) : Decidable status.IsServerError :=
  inferInstanceAs (Decidable (_ ∧ _))

instance (status : Status) : Decidable status.IsSuccess :=
  inferInstanceAs (Decidable (_ ∧ _))

theorem not_isClientError {status : Status} (h : status.IsSuccess ∨ status.IsServerError) :
    ¬ status.IsClientError := by
  rintro ⟨hlow, hhigh⟩
  rcases h with ⟨_, hsuccess⟩ | ⟨hserver, _⟩ <;> omega

end Status

/-! ## Commitment -/

/-- Some of the calls may have changed the cluster. -/
def Writes (events : List Event) : Prop :=
  ∃ e ∈ events, e.call.isMutating = true

theorem not_writes_iff {events : List Event} :
    ¬ Writes events ↔ ∀ e ∈ events, e.call.isMutating = false := by
  simp [Writes]

theorem Writes.right {first rest : List Event} (h : Writes (first ++ rest))
    (hfirst : ¬ Writes first) : Writes rest := by
  obtain ⟨e, he, hmutating⟩ := h
  rcases List.mem_append.mp he with he | he
  · exact absurd ⟨e, he, hmutating⟩ hfirst
  · exact ⟨e, he, hmutating⟩

namespace Program

variable {α β : Type} {good : α → Prop}

/-- A program that ends in some way only, whatever its calls are answered. -/
def Ends (good : α → Prop) (p : Program α) : Prop :=
  ∀ events v, p.Runs events v → good v

/-- A program that ends in some way only once one of its calls may have changed the cluster. -/
def Commits (good : α → Prop) (p : Program α) : Prop :=
  ∀ events v, p.Runs events v → Writes events → good v

theorem Ends.pure {v : α} (h : good v) : (pure v : Program α).Ends good := by
  intro events u hruns
  obtain ⟨_, rfl⟩ := runs_pure_iff.mp hruns
  exact h

theorem Ends.bind {p : Program β} {f : β → Program α} (h : ∀ v, (f v).Ends good) :
    (p >>= f).Ends good := by
  intro events v hruns
  obtain ⟨_, rest, u, _, _, hrest⟩ := runs_bind_iff.mp hruns
  exact h u rest v hrest

theorem Ends.commits {p : Program α} (h : p.Ends good) : p.Commits good :=
  fun events v hruns _ => h events v hruns

theorem Reads.not_writes {p : Program α} (h : p.Reads) {events : List Event} {v : α}
    (hruns : p.Runs events v) : ¬ Writes events :=
  not_writes_iff.mpr (hruns.sort_of_mem h)

theorem Reads.commits {p : Program α} (h : p.Reads) : p.Commits good :=
  fun _ _ hruns hwrites => absurd hwrites (h.not_writes hruns)

/-- A program that reads before it commits. -/
theorem Commits.bind {p : Program β} {f : β → Program α} (hp : p.Reads)
    (hf : ∀ v, (f v).Commits good) : (p >>= f).Commits good := by
  intro events v hruns hwrites
  obtain ⟨first, rest, u, rfl, hfirst, hrest⟩ := runs_bind_iff.mp hruns
  exact hf u rest v hrest (hwrites.right (hp.not_writes hfirst))

end Program

/-! ## The operations -/

open Program

/-- An outcome for which the client is not at fault. -/
def Outcome.Blameless {α : Type} (outcome : Outcome α) : Prop :=
  ∀ e, outcome = .error e → (ServerError.statusOf e).IsServerError

theorem Outcome.Blameless.ok {α : Type} (v : α) : Blameless (.ok v : Outcome α) :=
  nofun

theorem Outcome.Blameless.object {α : Type} (action : Action) (kind name : String)
    (e : StoreError) : Blameless (.error (.object action kind name e) : Outcome α) := by
  rintro _ ⟨⟩
  show Status.badGateway.IsServerError
  decide

theorem Plan.commit_ends (p : Plan) : p.commit.Ends Outcome.Blameless := by
  refine .bind fun created => ?_
  split
  · exact .pure (.object _ _ _ _)
  · refine .bind fun stored => ?_
    split
    · exact .pure (.object _ _ _ _)
    · exact .pure (.ok _)

theorem createMachine_commits (name : String) (spec : MachineSpec) (credentials : Credentials) :
    (createMachine name spec credentials).Commits Outcome.Blameless := by
  refine .bind (Plan.prepare_reads name spec credentials) fun prepared => ?_
  split
  · exact Reads.commits (.pure _)
  · exact (Plan.commit_ends _).commits

theorem deleteMachine_commits (name : String) (credentials : Credentials) :
    (deleteMachine name credentials).Commits Outcome.Blameless := by
  refine .bind (.call rfl) fun client => ?_
  split
  · exact Reads.commits (.pure _)
  · refine .bind (getMachine_reads _ _) fun read => ?_
    split
    -- A machine that is missing, or cannot be read, ends the deletion before it writes.
    · exact Reads.commits (.pure _)
    · exact Reads.commits (.pure _)
    · refine Ends.commits (.bind fun answer => ?_)
      split
      · exact .pure (.ok _)
      · exact .pure (.ok _)
      · exact .pure (.object _ _ _ _)

/-- However the attempts to stop a machine go, what they meet is not the fault of the client, even
    when the machine has gone meanwhile. -/
theorem shutdownMachine_commits (policy : RetryPolicy) (name : String) (credentials : Credentials) :
    (shutdownMachine policy name credentials).Commits Outcome.Blameless := by
  refine .bind (.call rfl) fun client => ?_
  split
  · exact Reads.commits (.pure _)
  · refine .bind (getMachine_reads _ _) fun read => ?_
    split
    · exact Reads.commits (.pure _)
    -- From here on every end is good, so it does not matter which attempts have written.
    · refine Ends.commits (.bind fun outcome => ?_)
      split
      · exact .pure (.ok _)
      · exact .pure (.object _ _ _ _)

/-! ## Responses -/

namespace Command

theorem RunsAndReports.status_of_writes {α : Type} {operation : Program (Outcome α)}
    {success : Nat} {document : α → Json} {events : List Event} {response : Response}
    (h : RunsAndReports operation success document events response)
    (hcommits : operation.Commits Outcome.Blameless) (hsuccess : 200 ≤ success ∧ success < 300)
    (hwrites : Writes events) : response.status.IsSuccess ∨ response.status.IsServerError := by
  obtain ⟨outcome, hruns, hreports⟩ := h
  have hblameless := hcommits events outcome hruns hwrites
  cases outcome with
  | ok v =>
      rw [Status.IsSuccess, hreports.code_eq]
      exact .inl hsuccess
  | error e =>
      have he := hblameless e rfl
      rw [Status.IsServerError, code_statusOf] at he
      rw [Status.IsServerError, hreports.code_eq]
      exact .inr he

/-- A command that has called for a change is answered with a success or a server error. -/
theorem Drives.status_of_writes {policy : RetryPolicy} {command : Command} {events : List Event}
    {response : Response} (h : command.Drives policy events response) (hwrites : Writes events) :
    response.status.IsSuccess ∨ response.status.IsServerError := by
  cases command with
  | create name spec credentials =>
      exact RunsAndReports.status_of_writes h (createMachine_commits _ _ _) (by decide) hwrites
  | list spec credentials =>
      exact RunsAndReports.status_of_writes h (listMachines_reads _ _).commits (by decide) hwrites
  | delete name credentials =>
      exact RunsAndReports.status_of_writes h (deleteMachine_commits _ _) (by decide) hwrites
  | status name credentials =>
      exact RunsAndReports.status_of_writes h (machineStatus_reads _ _).commits (by decide) hwrites
  | shutdown name credentials =>
      exact RunsAndReports.status_of_writes h (shutdownMachine_commits _ _ _) (by decide) hwrites

end Command

namespace Service

variable {σ : Type} {step : σ → Event → σ → Prop} {c : Config}

theorem Serves.status_of_writes {s t : σ} {x : Transaction} (h : Serves step c s x t)
    (hwrites : Writes x.events) :
    x.response.status.IsSuccess ∨ x.response.status.IsServerError := by
  obtain ⟨r, events, response⟩ := x
  cases haccept : accept c r with
  | ok command =>
      obtain ⟨hruns, _⟩ := (serves_iff_of_accept haccept).mp h
      exact (Command.runs_perform_iff.mp hruns).status_of_writes hwrites
  | error refusal =>
      obtain ⟨rfl, _, _⟩ := (refuses_of_accept haccept _ _ _ _ _ _).mp h
      obtain ⟨_, he, _⟩ := hwrites
      cases he

/-- **A client error means that nothing was written.** In every session, a request that is answered
    with a client error has called for no change of the cluster; so a request that has called for
    one is answered with a success or with a server error. -/
theorem client_error_writes_nothing {s t : σ} {session : List Transaction}
    (h : Path (Serves step c) s session t) {x : Transaction} (hx : x ∈ session) :
    (x.response.status.IsClientError → ∀ e ∈ x.events, e.call.isMutating = false)
      ∧ ((∃ e ∈ x.events, e.call.isMutating = true) →
        x.response.status.IsSuccess ∨ x.response.status.IsServerError) := by
  obtain ⟨u, w, hserves⟩ := h.step_of_mem hx
  refine ⟨fun hclient => not_writes_iff.mp fun hwrites => ?_, hserves.status_of_writes⟩
  exact Status.not_isClientError (hserves.status_of_writes hwrites) hclient

/-- The shutdown of a machine that does not exist asks the cluster for it, is answered with a client
    error, and changes nothing. -/
theorem client_error_of_shutdown_of_missing_machine :
    ∃ session t, Path (Serves (fun w e w' => World.answer e.call w = (e.answer, w'))
        ⟨Config.defaultAddress, none, none⟩) {} session t
      ∧ ∃ x ∈ session, x.events ≠ [] ∧ x.response.status = .notFound
        ∧ ∀ e ∈ x.events, e.call.isMutating = false := by
  let c : Config := unguarded
  let r : Request := sampleRequest "/machines/vm-a/shutdown" ""
  obtain ⟨response, hresponse⟩ := (respond_never_crashes c r).exists_run_eq World.answer {}
  have hstatus : response.status = .notFound := by
    have hrun : ((respond c r).run World.answer {}).1.map Response.status = some .notFound := by
      decide +kernel
    rw [hresponse] at hrun
    exact Option.some.inj hrun
  have hcalls : ((respond c r).run World.answer {}).2.calls ≠ [] := by decide +kernel
  obtain ⟨events, hserves⟩ := exists_serves hresponse
  let x : Transaction := ⟨r, events, response⟩
  have hsession : Path (Serves (fun w e w' => World.answer e.call w = (e.answer, w')) c) {} [x]
      ((respond c r).run World.answer {}).2 := ⟨_, hserves, rfl⟩
  have hevents : events ≠ [] := by
    rintro rfl
    exact hcalls (congrArg World.calls (path_nil_iff.mp hserves.2))
  have hclient : x.response.status.IsClientError := by
    rw [hstatus]
    decide
  exact ⟨[x], _, hsession, x, List.mem_singleton_self x, hevents, hstatus,
    (client_error_writes_nothing hsession (List.mem_singleton_self x)).1 hclient⟩

end Service

end MachineDriver
