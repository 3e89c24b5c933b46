import MachineDriver.Proofs.Calls

set_option autoImplicit false

/-!
# Creation settles everything before it writes

A machine is created in two parts. `Plan.prepare` does all that can fail without harm: it asks for
the namespace and for the version of the cluster, writes the network settings, adds the keys to the
user data and looks for the volume to start from. Only a plan that was settled is committed, by at
most two writes: the machine, and then its secret.

`Plan.Settled` says what a successful preparation asked and what follows for the plan. The main
statement, `createMachine_writes_only_settled_plans`, goes through the ways in which a creation can
end: of those that fail, a single one leaves something behind, the machine whose secret was
refused. -/

namespace MachineDriver

open Program

variable {name : String} {spec : MachineSpec} {credentials : Credentials}

namespace Plan

/-! ## Preparation -/

/-- The plan `p` is what a preparation with the calls `preparation` settled: every step that can
    fail was taken and succeeded, and none of them wrote anything. -/
structure Settled (name : String) (spec : MachineSpec) (credentials : Credentials)
    (preparation : List Event) (p : Plan) : Prop where
  name_eq : p.name = name
  spec_eq : p.spec = spec
  networks_eq : NetworkLayout.ofSpecs spec.networks = .ok p.networks
  userData_eq : userDataFor spec credentials = .ok p.userData
  /-- The client, the time and the version come first, and then the volume to start from. -/
  calls : ∃ seconds version lookup,
    preparation = ⟨.client credentials, .ok p.ns⟩ :: ⟨.now, seconds⟩
        :: ⟨.serverVersion credentials, .ok version⟩ :: lookup
      ∧ p.secretName = userDataSecretName name seconds
      ∧ p.affinity = Topology.affinity? spec.region spec.zone version
      ∧ (findBootSource p.ns spec.sourceUrl
          ((machineLabels name spec.tags).get? classLabel)).Runs lookup (.ok p.bootSource)
  reads : ∀ e ∈ preparation, e.call.isMutating = false

theorem settled_of_runs_prepare {preparation : List Event} {p : Plan}
    (h : (prepare name spec credentials).Runs preparation (.ok p)) :
    p.Settled name spec credentials preparation := by
  have reads := h.sort_of_mem (prepare_reads name spec credentials)
  unfold prepare at h
  obtain ⟨client, rest, rfl, hclient⟩ := runs_call_bind_iff.mp h
  cases client with
  | error e => simp at hclient
  | ok ns =>
      obtain ⟨seconds, rest, rfl, hnow⟩ := runs_call_bind_iff.mp hclient
      cases hnetworks : NetworkLayout.ofSpecs spec.networks with
      | error e => simp [hnetworks] at hnow
      | ok networks =>
          simp only [hnetworks] at hnow
          obtain ⟨version, rest, rfl, hversion⟩ := runs_call_bind_iff.mp hnow
          cases version with
          | error e => simp at hversion
          | ok version =>
              cases hdata : userDataFor spec credentials with
              | error e => simp [hdata] at hversion
              | ok userData =>
                  simp only [hdata] at hversion
                  obtain ⟨lookup, last, source, rfl, hlookup, hsource⟩ :=
                    runs_bind_iff.mp hversion
                  cases source with
                  | error e => simp at hsource
                  | ok source =>
                      obtain ⟨rfl, hp⟩ := runs_pure_iff.mp hsource
                      cases hp
                      exact
                        { name_eq := rfl
                          spec_eq := rfl
                          networks_eq := hnetworks
                          userData_eq := hdata
                          calls := ⟨seconds, version, lookup, by simp, rfl, rfl, hlookup⟩
                          reads := reads }

/-! ## Commitment -/

/-- The ways in which a commitment can end: the machine is refused; the machine is created and its
    secret refused; both are created. -/
theorem cases_of_runs_commit {p : Plan} {writes : List Event} {outcome : Outcome String}
    (h : p.commit.Runs writes outcome) :
    (∃ fault, writes = [⟨.createVirtualMachine p.virtualMachine, .error fault⟩]
        ∧ outcome = .error (.object .create VirtualMachine.resource.kind p.name fault))
      ∨ (∃ created fault, writes = [⟨.createVirtualMachine p.virtualMachine, .ok created⟩,
            ⟨.createSecret (p.secret created), .error fault⟩]
          ∧ outcome = .error (.object .create Secret.resource.kind p.secretName fault))
      ∨ ∃ created stored, writes = [⟨.createVirtualMachine p.virtualMachine, .ok created⟩,
            ⟨.createSecret (p.secret created), .ok stored⟩]
          ∧ outcome = .ok (ProviderId.encode p.name) := by
  unfold commit at h
  obtain ⟨machine, rest, rfl, hmachine⟩ := runs_call_bind_iff.mp h
  cases machine with
  | error fault =>
      obtain ⟨rfl, rfl⟩ := runs_pure_iff.mp hmachine
      exact .inl ⟨fault, rfl, rfl⟩
  | ok created =>
      obtain ⟨secret, rest, rfl, hsecret⟩ := runs_call_bind_iff.mp hmachine
      cases secret with
      | error fault =>
          obtain ⟨rfl, rfl⟩ := runs_pure_iff.mp hsecret
          exact .inr (.inl ⟨created, fault, rfl, rfl⟩)
      | ok stored =>
          obtain ⟨rfl, rfl⟩ := runs_pure_iff.mp hsecret
          exact .inr (.inr ⟨created, stored, rfl, rfl⟩)

end Plan

/-! ## Creation -/

/-- A creation either ends with its preparation, which failed, or commits what was settled. -/
theorem cases_of_runs_createMachine {events : List Event} {outcome : Outcome String}
    (h : (createMachine name spec credentials).Runs events outcome) :
    (∃ error, outcome = .error error
        ∧ (Plan.prepare name spec credentials).Runs events (.error error))
      ∨ ∃ (plan : Plan) (preparation writes : List Event), events = preparation ++ writes
          ∧ plan.Settled name spec credentials preparation ∧ plan.commit.Runs writes outcome := by
  unfold createMachine at h
  obtain ⟨preparation, writes, prepared, rfl, hprepare, hwrites⟩ := runs_bind_iff.mp h
  cases prepared with
  | error e =>
      obtain ⟨rfl, rfl⟩ := runs_pure_iff.mp hwrites
      exact .inl ⟨e, rfl, by simpa using hprepare⟩
  | ok plan =>
      exact .inr ⟨plan, preparation, writes, rfl, Plan.settled_of_runs_prepare hprepare, hwrites⟩

/-- **Creation writes only settled plans.** If a creation fails, then its preparation failed and it
    wrote nothing; or the machine was refused, by the last call; or the machine was created and the
    secret refused, by the last call. If it succeeds, the last two calls created the machine and its
    secret. Nothing else is ever written. -/
theorem createMachine_writes_only_settled_plans {events : List Event} {outcome : Outcome String}
    (h : (createMachine name spec credentials).Runs events outcome) :
    (∀ error, outcome = .error error →
        ((∀ e ∈ events, e.call.isMutating = false)
            ∧ (Plan.prepare name spec credentials).Runs events (.error error))
          ∨ ∃ (plan : Plan) (preparation : List Event),
            plan.Settled name spec credentials preparation
            ∧ ((∃ fault, events
                    = preparation ++ [⟨.createVirtualMachine plan.virtualMachine, .error fault⟩]
                  ∧ error = .object .create VirtualMachine.resource.kind name fault)
              ∨ ∃ created fault, events
                    = preparation ++ [⟨.createVirtualMachine plan.virtualMachine, .ok created⟩,
                        ⟨.createSecret (plan.secret created), .error fault⟩]
                  ∧ error = .object .create Secret.resource.kind plan.secretName fault))
      ∧ ∀ id, outcome = .ok id → id = ProviderId.encode name
          ∧ ∃ (plan : Plan) (preparation : List Event),
            plan.Settled name spec credentials preparation
            ∧ ∃ created stored, events
                = preparation ++ [⟨.createVirtualMachine plan.virtualMachine, .ok created⟩,
                    ⟨.createSecret (plan.secret created), .ok stored⟩] := by
  rcases cases_of_runs_createMachine h with ⟨e, rfl, hprepare⟩ | ⟨plan, preparation, writes, rfl,
    settled, hcommit⟩
  · refine ⟨fun error herror => .inl ?_, fun id hid => by cases hid⟩
    cases herror
    exact ⟨hprepare.sort_of_mem (Plan.prepare_reads name spec credentials), hprepare⟩
  · rcases Plan.cases_of_runs_commit hcommit with ⟨fault, rfl, rfl⟩ | ⟨created, fault, rfl, rfl⟩
      | ⟨created, stored, rfl, rfl⟩
    · refine ⟨fun error herror => .inr ⟨plan, preparation, settled, .inl ⟨fault, rfl, ?_⟩⟩,
        fun id hid => by cases hid⟩
      cases herror
      rw [settled.name_eq]
    · refine ⟨fun error herror => .inr ⟨plan, preparation, settled, .inr ⟨created, fault, rfl, ?_⟩⟩,
        fun id hid => by cases hid⟩
      cases herror
      rfl
    · refine ⟨fun error herror => (by cases herror), fun id hid => ?_⟩
      cases hid
      exact ⟨by rw [settled.name_eq], plan, preparation, settled, created, stored, rfl⟩

/-- The plan of a machine of an empty specification. -/
def Plan.bare (name ns : String) (seconds : Nat) (userData : String) : Plan :=
  { name := name
    ns := ns
    spec := {}
    networks := ⟨[.ofMasquerade NetworkLayout.podName], [.ofPod NetworkLayout.podName], none⟩
    affinity := none
    bootSource := .ofUrl ""
    secretName := userDataSecretName name seconds
    userData := userData }

/-- The calls that create a machine of an empty specification, the last of which is answered in some
    way. -/
def Plan.bareCalls (answer : Except StoreError Secret) : List Event :=
  let p : Plan := .bare "a" "default" 0 ""
  [⟨.client {}, .ok "default"⟩, ⟨.now, (0 : Nat)⟩, ⟨.serverVersion {}, .ok "v1.28.2"⟩,
    ⟨.createVirtualMachine p.virtualMachine, .ok p.virtualMachine⟩,
    ⟨.createSecret (p.secret p.virtualMachine), answer⟩]

/-- The last two calls create a machine and its secret, or the last one is refused. -/
theorem createMachine_writes_plan_with_and_without_secret :
    (∃ stored, (createMachine "a" {} {}).Runs (Plan.bareCalls (.ok stored)) (.ok "kubevirt://a")
        ∧ ∃ (plan : Plan) (preparation : List Event), plan.Settled "a" {} {} preparation
          ∧ ∃ created stored', Plan.bareCalls (.ok stored)
            = preparation ++ [⟨.createVirtualMachine plan.virtualMachine, .ok created⟩,
                ⟨.createSecret (plan.secret created), .ok stored'⟩])
      ∧ ∃ fault error, (createMachine "a" {} {}).Runs (Plan.bareCalls (.error fault)) (.error error)
        ∧ ∃ (plan : Plan) (preparation : List Event), plan.Settled "a" {} {} preparation
          ∧ ∃ created fault', Plan.bareCalls (.error fault)
              = preparation ++ [⟨.createVirtualMachine plan.virtualMachine, .ok created⟩,
                  ⟨.createSecret (plan.secret created), .error fault'⟩]
            ∧ error = .object .create Secret.resource.kind plan.secretName fault' := by
  let p : Plan := .bare "a" "default" 0 ""
  let stored : Secret := p.secret p.virtualMachine
  have hstored : (createMachine "a" {} {}).Runs (Plan.bareCalls (.ok stored))
      (.ok "kubevirt://a") := .ask _ (.ask _ (.ask _ (.ask _ (.ask _ (.done _)))))
  have hrefused : (createMachine "a" {} {}).Runs (Plan.bareCalls (.error (.api "quota exceeded")))
      (.error (.object .create "Secret" "userdata-a-0" (.api "quota exceeded"))) :=
    .ask _ (.ask _ (.ask _ (.ask _ (.ask _ (.done _)))))
  have hmachine : ⟨.createVirtualMachine p.virtualMachine, .ok p.virtualMachine⟩
      ∈ Plan.bareCalls (.error (.api "quota exceeded")) := by
    simp [Plan.bareCalls, p]
  refine ⟨⟨stored, hstored, ((createMachine_writes_only_settled_plans hstored).2 _ rfl).2⟩,
    _, _, hrefused, ?_⟩
  rcases (createMachine_writes_only_settled_plans hrefused).1 _ rfl with ⟨hreads, -⟩
    | ⟨plan, preparation, settled, ⟨fault, -, herror⟩ | hsecret⟩
  · exact absurd (hreads _ hmachine) (by decide)
  · exact absurd (DriverError.object.inj herror).2.1 (by decide)
  · exact ⟨plan, preparation, settled, hsecret⟩

end MachineDriver
