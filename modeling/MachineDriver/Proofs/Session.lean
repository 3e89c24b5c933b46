import MachineDriver.Proofs.RetryLoop
import MachineDriver.Server.Service

set_option autoImplicit false

/-!
# Sessions of a server

A session is a list of requests that a server answers one after the other against a cluster that
lives on from one to the next. What the cluster is, how it answers and fails, and who else changes
it is left to the relation `step` between the states before and after a call, so that a statement
about all sessions holds of all of them. `exists_session` says that there is a session for every
list of requests: a server answers whatever it is asked, since its pauses are always spans of
time. -/

namespace MachineDriver

/-- A request that was answered, with the calls that were made for it. -/
structure Transaction where
  request : Request
  events : List Event
  response : Response

/-! ## Labels of paths -/

section Labels

variable {σ ε : Type} {step step' : σ → ε → σ → Prop}

/-- Relations with the same steps have the same paths. -/
theorem path_congr (h : ∀ s e t, step s e t ↔ step' s e t) {s t : σ} {labels : List ε} :
    Path step s labels t ↔ Path step' s labels t := by
  induction labels generalizing s with
  | nil => rfl
  | cons e rest ih => simp only [path_cons_iff, h, ih]

end Labels

/-! ## Serving -/

namespace Service

variable {σ : Type}

/-- `Serves step c s x t`: a server of the configuration `c` answers the request of `x` with its
    response and makes its calls, which take the cluster from `s` to `t`. -/
def Serves (step : σ → Event → σ → Prop) (c : Config) (s : σ) (x : Transaction) (t : σ) : Prop :=
  (respond c x.request).Runs x.events x.response ∧ Path step s x.events t

/-- A request is refused with a response: it is answered so whatever the cluster is, without any
    call, and the cluster stays as it is. -/
def Refuses (c : Config) (r : Request) (response : Response) : Prop :=
  ∀ (σ : Type) (step : σ → Event → σ → Prop) (s t : σ) (events : List Event) (answer : Response),
    Serves step c s ⟨r, events, answer⟩ t ↔ events = [] ∧ answer = response ∧ t = s

/-- The delays of a server are moderate. -/
theorem retryPolicy_moderate (c : Config) : c.retryPolicy.Moderate := by
  have hjitter (n : Nat) :
      ∃ share, some (Binary64.zero false) = some share ∧ ∃ v ≤ 1, share.IsSize v :=
    ⟨_, rfl, 0, by norm_num, Binary64.zero_isSize false⟩
  unfold Config.retryPolicy RetryPolicy.ofAttempts
  split <;> exact RetryPolicy.moderate_usual hjitter

theorem respondWith_never_crashes {α : Type} {p : Program (Outcome α)} (hp : p.NeverCrashes)
    (success : Status) (write : α → Json) :
    (do return Command.respondWith success write (← p) : Program Response).NeverCrashes :=
  .bind hp fun _ => .pure _

/-- A server never crashes over a request. -/
theorem respond_never_crashes (c : Config) (r : Request) : (respond c r).NeverCrashes := by
  unfold respond
  split
  · rename_i command _
    cases command with
    | create => exact respondWith_never_crashes (createMachine_never_crashes _ _ _) _ _
    | list => exact respondWith_never_crashes (listMachines_never_crashes _ _) _ _
    | delete => exact respondWith_never_crashes (deleteMachine_never_crashes _ _) _ _
    | status => exact respondWith_never_crashes (machineStatus_never_crashes _ _) _ _
    | shutdown =>
        have hsound := (retryPolicy_moderate c).isSound
        exact respondWith_never_crashes (shutdownMachine_never_crashes_iff.mpr hsound) _ _
  · exact .pure _

/-- A run that leads to a response serves the request with it. -/
theorem exists_serves {answer : (c : Call) → σ → c.Answer × σ} {c : Config} {r : Request} {s : σ}
    {response : Response} (h : ((respond c r).run answer s).1 = some response) :
    ∃ events, Serves (fun s e t => answer e.call s = (e.answer, t)) c s ⟨r, events, response⟩
      ((respond c r).run answer s).2 :=
  Program.exists_runs_of_run_eq h

/-- Every list of requests is answered in a session with a cluster that answers every call. -/
theorem exists_session (answer : (c : Call) → σ → c.Answer × σ) (c : Config)
    (requests : List Request) (s : σ) :
    ∃ session t, session.map Transaction.request = requests
      ∧ Path (Serves (fun s e t => answer e.call s = (e.answer, t)) c) s session t := by
  induction requests generalizing s with
  | nil => exact ⟨[], s, rfl, rfl⟩
  | cons r rest ih =>
      obtain ⟨response, hresponse⟩ := (respond_never_crashes c r).exists_run_eq answer s
      obtain ⟨events, hserves⟩ := exists_serves hresponse
      obtain ⟨session, t, hrequests, hrest⟩ := ih ((respond c r).run answer s).2
      exact ⟨⟨r, events, response⟩ :: session, t, congrArg (r :: ·) hrequests, _, hserves, hrest⟩

/-- A request that is not accepted is refused. -/
theorem refuses_of_accept {c : Config} {r : Request} {response : Response}
    (h : accept c r = .error response) :
    Refuses c r { response with headOnly := r.method = "HEAD" } := by
  intro σ step s t events answer
  have hrespond : respond c r = pure { response with headOnly := r.method = "HEAD" } := by
    rw [respond, h]
  rw [Serves, hrespond, Program.runs_pure_iff]
  constructor
  · rintro ⟨⟨rfl, rfl⟩, rfl⟩
    exact ⟨rfl, rfl, rfl⟩
  · rintro ⟨rfl, rfl, rfl⟩
    exact ⟨⟨rfl, rfl⟩, rfl⟩

/-- A request that is accepted is served by performing its command. -/
theorem serves_iff_of_accept {c : Config} {r : Request} {command : Command}
    (h : accept c r = .ok command) {step : σ → Event → σ → Prop} {s t : σ} {events : List Event}
    {response : Response} : Serves step c s ⟨r, events, response⟩ t
      ↔ (command.perform c.retryPolicy).Runs events response ∧ Path step s events t := by
  have hrespond : respond c r = command.perform c.retryPolicy := by
    rw [respond, h]
  rw [Serves, hrespond]

end Service

end MachineDriver
