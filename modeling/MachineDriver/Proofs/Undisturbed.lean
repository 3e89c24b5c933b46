import MachineDriver.Cluster.Store
import MachineDriver.Proofs.Creation
import MachineDriver.Server.Command

set_option autoImplicit false

/-!
# Undisturbed clusters

A cluster that one driver has for itself and that answers every call as it is asked to. Its `Terms`
say which namespaces credentials lead to and which identities machines may get; the time, the
version of the cluster and the versions of machines are left open.

`Cluster.Performs` says what becomes of such a cluster by one operation. A creation in it is all or
nothing, by `cases_of_createMachine`: it stores a machine together with its secret, or it leaves the
cluster as it was. -/

namespace MachineDriver

open Program

namespace Cluster

/-! ## Writes -/

section Writes

variable {c d : Cluster} {ns name version : String}

/-- Whether a secret is owned by the identity of a machine. -/
def owns (vm : VirtualMachine) (s : Secret) : Bool :=
  vm.metadata.uid.any fun uid => isOwnedBy uid s

theorem owns_of_uid {vm : VirtualMachine} {uid : String} (h : vm.metadata.uid = some uid) :
    owns vm = isOwnedBy uid := by
  funext s
  rw [owns, h]
  rfl

/-- A cluster without a machine and without the secrets that the machine owns. -/
def without (c : Cluster) (ns name : String) (vm : VirtualMachine) : Cluster :=
  { c.dropMachine ns name with secrets := c.secrets.filter fun s => !owns vm s }

theorem machine?_without (c : Cluster) (ns name : String) (vm : VirtualMachine)
    (ns' name' : String) : (c.without ns name vm).machine? ns' name'
      = if (ns', name') = (ns, name) then none else c.machine? ns' name' :=
  machine?_dropMachine c ns name ns' name'

/-- What a cluster does when it is to delete a machine: it finds none, or it removes the machine. -/
theorem cases_of_deleted {answer : Except StoreError Unit}
    (h : (answer, d) = c.deleteMachine ns name) :
    c.machine? ns name = none ∧ answer = .error .notFound ∧ d = c
      ∨ ∃ vm, c.machine? ns name = some vm ∧ answer = .ok () ∧ d = c.without ns name vm := by
  unfold deleteMachine at h
  split at h
  · rename_i hnone
    cases h
    exact .inl ⟨hnone, rfl, rfl⟩
  · rename_i vm hvm
    refine .inr ⟨vm, hvm, ?_⟩
    dsimp only at h
    split at h
    · rename_i huid
      cases h
      -- A machine without an identity owns nothing.
      have hkept : c.secrets.filter (fun s => !owns vm s) = c.secrets := by simp [owns, huid]
      exact ⟨rfl, by rw [without, hkept]; rfl⟩
    · rename_i uid huid
      cases h
      exact ⟨rfl, by rw [without, owns_of_uid huid]; rfl⟩

/-- What a cluster does when it is to set whether a machine runs: it refuses, or it stores the
    machine with another version. -/
theorem cases_of_running {expected : Option String} {running : Bool}
    {answer : Except StoreError VirtualMachine}
    (h : (answer, d) = c.setRunning version ns name expected running) :
    d = c ∨ ∃ vm, c.machine? ns name = some vm
      ∧ d = c.putMachine
        (withVersion { vm with spec := { vm.spec with running := some running } } version) := by
  unfold setRunning at h
  split at h
  · cases h
    exact .inl rfl
  · rename_i vm hvm
    split at h
    · cases h
      exact .inl rfl
    · cases h
      exact .inr ⟨vm, hvm, rfl⟩

end Writes

/-! ## Steps -/

/-- An identity that no machine of a cluster has. -/
def IsFresh (c : Cluster) (uid : String) : Prop :=
  ∀ ns name vm, c.machine? ns name = some vm → vm.metadata.uid ≠ some uid

/-- What a cluster keeps to. -/
structure Terms where
  /-- The namespaces that credentials lead to. -/
  home : Credentials → Outcome String
  /-- The identities that a machine may get when it is created. -/
  gives : Cluster → String → Prop

/-- Identities are given only to one machine at a time. -/
def Terms.fresh (home : Credentials → Outcome String) : Terms :=
  ⟨home, IsFresh⟩

/-- What may be answered to a call, and what becomes of the cluster. -/
def Answers (terms : Terms) (c : Cluster) : (call : Call) → call.Answer → Cluster → Prop
  | .client credentials, answer, d => answer = terms.home credentials ∧ d = c
  | .serverVersion _, _, d => d = c
  | .now, _, d => d = c
  | .sleep _, _, d => d = c
  | .getVirtualMachine ns name, answer, d => answer = c.getMachine ns name ∧ d = c
  | .listVirtualMachines ns labels, answer, d => answer = .ok (c.listMachines ns labels) ∧ d = c
  | .getDataVolume ns name, answer, d => answer = c.getVolume ns name ∧ d = c
  | .createVirtualMachine vm, answer, d =>
      ∃ uid version, terms.gives c uid ∧ (answer, d) = c.createMachine uid version vm
  | .setRunning ns name expected running, answer, d =>
      ∃ version, (answer, d) = c.setRunning version ns name expected running
  | .deleteVirtualMachine ns name, answer, d => (answer, d) = c.deleteMachine ns name
  | .createSecret s, answer, d => (answer, d) = c.createSecret s

/-- What may become of a cluster by a call. -/
def Step (terms : Terms) (c : Cluster) (e : Event) (d : Cluster) : Prop :=
  c.Answers terms e.call e.answer d

/-- What may become of a cluster by an operation, whether it has a value or crashes. -/
def Performs (terms : Terms) (policy : RetryPolicy) (c : Cluster) (command : Command)
    (d : Cluster) : Prop :=
  ∃ events response, (command.perform policy).Halts events response ∧ Path (Step terms) c events d

variable {terms : Terms} {c d : Cluster} {events : List Event}

theorem eq_of_read {e : Event} (h : c.Step terms e d) (hread : e.call.isMutating = false) :
    d = c := by
  obtain ⟨call, answer⟩ := e
  cases call with
  | client credentials => exact h.2
  | serverVersion credentials => exact h
  | getVirtualMachine ns name => exact h.2
  | listVirtualMachines ns labels => exact h.2
  | createVirtualMachine vm => cases hread
  | setRunning ns name expected running => cases hread
  | deleteVirtualMachine ns name => cases hread
  | getDataVolume ns name => exact h.2
  | createSecret s => cases hread
  | now => exact h
  | sleep duration => exact h

/-- Calls that write nothing leave a cluster as it is. -/
theorem eq_of_reads (h : Path (Step terms) c events d)
    (hreads : ∀ e ∈ events, e.call.isMutating = false) : d = c := by
  refine h.invariant (I := fun u => u = c) ?_ rfl
  rintro e he u w hstep rfl
  exact eq_of_read hstep (hreads e he)

/-! ## Outcomes -/

/-- What a program may end with in a cluster. -/
def Yields {α : Type} (terms : Terms) (c : Cluster) (p : Program α) (v : α) : Prop :=
  ∃ events d, p.Runs events v ∧ Path (Step terms) c events d

section Yields

variable {α β : Type}

@[simp] theorem yields_pure_iff {u v : α} : c.Yields terms (pure u) v ↔ v = u := by
  constructor
  · rintro ⟨events, d, hruns, _⟩
    exact (runs_pure_iff.mp hruns).2
  · rintro rfl
    exact ⟨[], c, runs_pure_iff.mpr ⟨rfl, rfl⟩, rfl⟩

/-- A program that begins with a call ends as its rest does after an answer to the call. -/
theorem yields_call_bind_iff {k : Call} {f : k.Answer → Program β} {v : β} :
    c.Yields terms (call k >>= f) v
      ↔ ∃ answer d, c.Answers terms k answer d ∧ d.Yields terms (f answer) v := by
  constructor
  · rintro ⟨events, e, hruns, hpath⟩
    obtain ⟨answer, rest, rfl, hrest⟩ := runs_call_bind_iff.mp hruns
    obtain ⟨d, hanswer, hpath⟩ := path_cons_iff.mp hpath
    exact ⟨answer, d, hanswer, rest, e, hrest, hpath⟩
  · rintro ⟨answer, d, hanswer, events, e, hrest, hpath⟩
    exact ⟨⟨k, answer⟩ :: events, e, runs_call_bind_iff.mpr ⟨answer, events, rfl, hrest⟩, d,
      hanswer, hpath⟩

/-- A call that has one answer and leaves the cluster as it is may be left out. -/
theorem yields_read_bind_iff {k : Call} {answer : k.Answer} {f : k.Answer → Program β} {v : β}
    (h : ∀ a d, c.Answers terms k a d ↔ a = answer ∧ d = c) :
    c.Yields terms (call k >>= f) v ↔ c.Yields terms (f answer) v := by
  rw [yields_call_bind_iff]
  constructor
  · rintro ⟨a, d, hanswer, hv⟩
    obtain ⟨rfl, rfl⟩ := (h a d).mp hanswer
    exact hv
  · intro hv
    exact ⟨answer, c, (h answer c).mpr ⟨rfl, rfl⟩, hv⟩

end Yields

end Cluster

/-! ## Creation -/

/-- A machine as a cluster stores it when it creates it. -/
def VirtualMachine.created (vm : VirtualMachine) (uid version : String) : VirtualMachine :=
  Cluster.withVersion { vm with metadata := { vm.metadata with uid := some uid } } version

/-- The machine of a plan as a cluster stores it. -/
def Plan.created (p : Plan) (uid version : String) : VirtualMachine :=
  Cluster.withVersion
    { p.virtualMachine with metadata := { p.virtualMachine.metadata with uid := some uid } } version

/-- A cluster with the machine of a plan and its secret. -/
def Cluster.withPlan (c : Cluster) (p : Plan) (uid version : String) : Cluster :=
  ((c.putMachine (p.created uid version)).createSecret (p.secret (p.created uid version))).2

section Creation

variable {terms : Cluster.Terms} {c d : Cluster} {uid version : String} {p : Plan}

theorem Cluster.machine?_withPlan {name : String} {spec : MachineSpec} {credentials : Credentials}
    {preparation : List Event} (settled : p.Settled name spec credentials preparation)
    (ns' name' : String) : (c.withPlan p uid version).machine? ns' name'
      = if (ns', name') = (p.ns, name) then some (p.created uid version)
        else c.machine? ns' name' := by
  have hkey : (p.created uid version).metadata.key = (p.ns, name) := by
    rw [← settled.name_eq]
    rfl
  rw [← hkey]
  exact machine?_putMachine c (p.created uid version) ns' name'

/-- What a cluster does when it is to create a machine: it refuses one of a name that exists, or it
    stores the machine. -/
theorem cases_of_stored {vm : VirtualMachine} {answer : Except StoreError VirtualMachine}
    (h : (answer, d) = c.createMachine uid version vm) :
    (∃ old reason, c.machine? vm.metadata.key.1 vm.metadata.key.2 = some old
        ∧ answer = .error (.conflict reason)) ∧ d = c
      ∨ c.machine? vm.metadata.key.1 vm.metadata.key.2 = none
        ∧ answer = .ok (vm.created uid version) ∧ d = c.putMachine (vm.created uid version) := by
  unfold Cluster.createMachine at h
  dsimp only at h
  split at h
  · rename_i old hold
    cases h
    exact .inl ⟨⟨old, _, hold, rfl⟩, rfl⟩
  · rename_i hnone
    cases h
    exact .inr ⟨hnone, rfl, rfl⟩

/-- What a commitment does to a cluster: nothing, or it stores both objects of its plan. -/
theorem cases_of_commit {writes : List Event} {outcome : Outcome String}
    (h : p.commit.Runs writes outcome) (hpath : Path (Cluster.Step terms) c writes d) :
    (∃ error, outcome = .error error) ∧ d = c
      ∨ outcome = .ok (ProviderId.encode p.name) ∧ ∃ uid version, terms.gives c uid
        ∧ c.machine? p.ns p.name = none ∧ d = c.withPlan p uid version := by
  rcases Plan.cases_of_runs_commit h with ⟨fault, rfl, rfl⟩ | ⟨created, fault, rfl, rfl⟩
    | ⟨created, stored, rfl, rfl⟩
  · obtain ⟨u, ⟨uid, version, _, hmachine⟩, rfl⟩ := hpath
    rcases cases_of_stored hmachine with ⟨_, rfl⟩ | ⟨_, hok, _⟩
    · exact .inl ⟨⟨_, rfl⟩, rfl⟩
    · cases hok
  · -- A secret is never refused.
    obtain ⟨_, _, _, hsecret, _⟩ := hpath
    cases hsecret
  · obtain ⟨u, ⟨uid, version, hgives, hmachine⟩, w, hsecret, rfl⟩ := hpath
    rcases cases_of_stored hmachine with ⟨⟨_, _, _, herror⟩, _⟩ | ⟨hnone, hok, rfl⟩
    · cases herror
    · cases hok
      cases hsecret
      exact .inr ⟨rfl, uid, version, hgives, hnone, rfl⟩

/-- **A creation is all or nothing** in a cluster that nothing disturbs. -/
theorem cases_of_createMachine {name : String} {spec : MachineSpec} {credentials : Credentials}
    {events : List Event} {outcome : Outcome String}
    (h : (createMachine name spec credentials).Runs events outcome)
    (hpath : Path (Cluster.Step terms) c events d) :
    (∃ error, outcome = .error error) ∧ d = c
      ∨ outcome = .ok (ProviderId.encode name) ∧ ∃ (p : Plan) (preparation : List Event)
          (uid version : String), p.Settled name spec credentials preparation
        ∧ terms.home credentials = .ok p.ns ∧ terms.gives c uid ∧ c.machine? p.ns name = none
        ∧ d = c.withPlan p uid version := by
  rcases cases_of_runs_createMachine h with ⟨e, rfl, hprepare⟩ | ⟨p, preparation, writes, rfl,
    settled, hcommit⟩
  · have hreads := hprepare.sort_of_mem (Plan.prepare_reads name spec credentials)
    exact .inl ⟨⟨e, rfl⟩, Cluster.eq_of_reads hpath hreads⟩
  · obtain ⟨u, hpreparation, hwrites⟩ := path_append_iff.mp hpath
    cases Cluster.eq_of_reads hpreparation settled.reads
    rcases cases_of_commit hcommit hwrites with hnothing | ⟨rfl, uid, version, hgives, hnone, rfl⟩
    · exact .inl hnothing
    · have hhome : terms.home credentials = .ok p.ns := by
        obtain ⟨seconds, clusterVersion, lookup, rfl, _⟩ := settled.calls
        obtain ⟨_, hclient, _⟩ := path_cons_iff.mp hpreparation
        exact hclient.1.symm
      rw [settled.name_eq] at hnone ⊢
      exact .inr ⟨rfl, p, preparation, uid, version, settled, hhome, hgives, hnone, rfl⟩

/-- What every creation of a machine with its secret keeps, and every call that creates nothing, is
    kept by an operation. -/
theorem Cluster.Performs.keeps {policy : RetryPolicy} {command : Command} {I : Cluster → Prop}
    (h : c.Performs terms policy command d)
    (hcreate : ∀ (name : String) (spec : MachineSpec) (credentials : Credentials) (p : Plan)
      (preparation : List Event) (uid version : String),
      command = .create name spec credentials → p.Settled name spec credentials preparation →
      terms.gives c uid → c.machine? p.ns p.name = none → I (c.withPlan p uid version))
    (hstep : ∀ u e w, Cluster.Step terms u e w → e.call.creates = false → I u → I w) (hc : I c) :
    I d := by
  obtain ⟨events, response, hhalts, hpath⟩ := h
  have hcalls (hcreates : (command.perform policy).CreatesNothing) : I d :=
    hpath.invariant (fun e he u w hw => hstep u e w hw (hhalts.sort_of_mem hcreates e he)) hc
  cases command with
  | create name spec credentials =>
      have hnever : (Command.perform policy (.create name spec credentials)).NeverCrashes :=
        .bind (createMachine_never_crashes name spec credentials) fun _ => .pure _
      obtain ⟨response, hruns⟩ := hhalts.exists_runs hnever
      obtain ⟨first, rest, outcome, rfl, hrun, hrest⟩ := runs_bind_iff.mp hruns
      obtain ⟨rfl, _⟩ := runs_pure_iff.mp hrest
      rw [List.append_nil] at hpath
      rcases cases_of_createMachine hrun hpath with ⟨_, rfl⟩
        | ⟨_, p, preparation, uid, version, settled, _, hgives, hnone, rfl⟩
      · exact hc
      · rw [← settled.name_eq] at hnone
        exact hcreate name spec credentials p preparation uid version rfl settled hgives hnone
  | list spec credentials =>
      exact hcalls (.bind (listMachines_reads spec credentials).createsNothing fun _ => .pure _)
  | delete name credentials =>
      exact hcalls (.bind (deleteMachine_creates_nothing name credentials) fun _ => .pure _)
  | status name credentials =>
      exact hcalls (.bind (machineStatus_reads name credentials).createsNothing fun _ => .pure _)
  | shutdown name credentials =>
      exact hcalls
        (.bind (shutdownMachine_creates_nothing policy name credentials) fun _ => .pure _)

/-- A machine of an empty specification is created at any time, unless there is one of its name. -/
theorem createMachine_bare {ns name : String} {credentials : Credentials} (seconds : Nat)
    (hhome : terms.home credentials = .ok ns) (hnone : c.machine? ns name = none)
    (hgives : terms.gives c uid) :
    ∃ events, (createMachine name {} credentials).Runs events (.ok (ProviderId.encode name))
      ∧ Path (Cluster.Step terms) c events
        (c.withPlan (.bare name ns seconds credentials.userData) uid version) := by
  let p : Plan := .bare name ns seconds credentials.userData
  have hmachine : c.createMachine uid version p.virtualMachine
      = (.ok (p.created uid version), c.putMachine (p.created uid version)) := by
    have hkey : p.virtualMachine.metadata.key = (ns, name) := rfl
    unfold Cluster.createMachine
    rw [hkey]
    dsimp only
    rw [hnone]
    rfl
  let events : List Event :=
    [⟨.client credentials, .ok ns⟩, ⟨.now, seconds⟩, ⟨.serverVersion credentials, .ok "v1.28.2"⟩,
      ⟨.createVirtualMachine p.virtualMachine, .ok (p.created uid version)⟩,
      ⟨.createSecret (p.secret (p.created uid version)), .ok (p.secret (p.created uid version))⟩]
  have hruns : (createMachine name {} credentials).Runs events _ :=
    .ask _ (.ask _ (.ask _ (.ask _ (.ask _ (.done _)))))
  exact ⟨events, hruns, c, ⟨hhome.symm, rfl⟩, c, rfl, c, rfl, _,
    ⟨uid, version, hgives, hmachine.symm⟩, _, rfl, rfl⟩

theorem Cluster.performs_bare {policy : RetryPolicy} {ns name : String} {credentials : Credentials}
    (seconds : Nat) (hhome : terms.home credentials = .ok ns) (hnone : c.machine? ns name = none)
    (hgives : terms.gives c uid) :
    c.Performs terms policy (.create name {} credentials)
      (c.withPlan (.bare name ns seconds credentials.userData) uid version) := by
  obtain ⟨events, hruns, hpath⟩ :=
    createMachine_bare seconds hhome hnone hgives
  exact ⟨events ++ [], some _, runs_bind_iff.mpr ⟨events, [], _, rfl, hruns, .done _⟩,
    by rwa [List.append_nil]⟩

end Creation

end MachineDriver
