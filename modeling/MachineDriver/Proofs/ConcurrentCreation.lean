import MachineDriver.Proofs.Growth
import MachineDriver.Proofs.Pairing

set_option autoImplicit false

/-!
# Creations beside each other

Any number of machines are created at the same time in a cluster that refuses nothing but a machine
whose name is taken. The driver holds no lock: between any two calls of one creation any calls of
the others may come.

Two things are put together here. What the calls of one creation are, as far as it has come, is its
`Stage`. What all calls together make of the cluster, from which nothing is removed, is `Grown`: the
machines that were created are new, and no two of them have the same name or the same identity.

The clock may show any time since the beginning of 1970 to any creation; that it shows none before
is assumed, in `Call.Answer`, for the names of the secrets. -/

namespace MachineDriver

open Program

/-! ## One creation -/

/-- What a machine is created from. -/
structure Creation where
  name : String
  spec : MachineSpec
  credentials : Credentials

namespace Creation

/-- The program that creates the machine. -/
def program (k : Creation) : Program (Outcome String) :=
  createMachine k.name k.spec k.credentials

/-- The plan `p` is what the calls `preparation` settled for a creation. -/
abbrev Settles (k : Creation) (preparation : List Event) (p : Plan) : Prop :=
  p.Settled k.name k.spec k.credentials preparation

/-- How far a creation has come after the calls `preparation`: what it has written, and what is left
    of it. -/
inductive Stage (k : Creation) (preparation : List Event) :
    List Event → Program (Outcome String) → Prop where
  /-- Nothing is written yet, and perhaps nothing ever will. -/
  | reading {left : Program (Outcome String)} : Stage k preparation [] left
  | refused {p : Plan} {fault : StoreError} (settled : k.Settles preparation p) :
      Stage k preparation [⟨.createVirtualMachine p.virtualMachine, .error fault⟩]
        (pure (.error (.object .create VirtualMachine.resource.kind k.name fault)))
  | halfway {p : Plan} {vm : VirtualMachine}
      {next : Except StoreError Secret → Program (Outcome String)}
      (settled : k.Settles preparation p) :
      Stage k preparation [⟨.createVirtualMachine p.virtualMachine, .ok vm⟩]
        (.ask (.createSecret (p.secret vm)) next)
  | ended {p : Plan} {vm : VirtualMachine} {answer : Except StoreError Secret}
      {outcome : Outcome String} (settled : k.Settles preparation p)
      (succeeds : ∀ stored, answer = .ok stored → outcome = .ok (ProviderId.encode k.name)) :
      Stage k preparation [⟨.createVirtualMachine p.virtualMachine, .ok vm⟩,
        ⟨.createSecret (p.secret vm), answer⟩] (pure outcome)

/-- **What a creation has done so far**, whatever its calls are answered. -/
theorem stage_of_path {k : Creation} {events : List Event} {left : Program (Outcome String)}
    (h : Path Step k.program events left) :
    ∃ preparation writes, events = preparation ++ writes
      ∧ (∀ e ∈ preparation, e.call.isMutating = false) ∧ k.Stage preparation writes left := by
  have hreads := Plan.prepare_reads k.name k.spec k.credentials
  rcases cases_of_path_bind h with ⟨_, hprepare⟩ | ⟨preparation, writes, prepared, rfl, hprepare,
    hwrites⟩
  · exact ⟨events, [], by simp, hreads.sort_of_path hprepare, .reading⟩
  refine ⟨preparation, writes, rfl, hprepare.sort_of_mem hreads, ?_⟩
  cases prepared with
  | error e =>
      obtain ⟨rfl, rfl⟩ := path_pure_iff.mp hwrites
      exact .reading
  | ok p =>
      have settled := Plan.settled_of_runs_prepare hprepare
      rcases path_call_bind_iff.mp hwrites with ⟨rfl, rfl⟩ | ⟨machine, rest, rfl, hmachine⟩
      · exact .reading
      cases machine with
      | error fault =>
          obtain ⟨rfl, rfl⟩ := path_pure_iff.mp hmachine
          rw [settled.name_eq]
          exact .refused settled
      | ok vm =>
          rcases path_call_bind_iff.mp hmachine with ⟨rfl, rfl⟩ | ⟨secret, rest, rfl, hsecret⟩
          · exact .halfway settled
          cases secret with
          | error fault =>
              obtain ⟨rfl, rfl⟩ := path_pure_iff.mp hsecret
              exact .ended settled fun _ hstored => by cases hstored
          | ok stored =>
              obtain ⟨rfl, rfl⟩ := path_pure_iff.mp hsecret
              exact .ended settled fun _ _ => by rw [settled.name_eq]

namespace Stage

variable {k : Creation} {preparation writes : List Event} {left : Program (Outcome String)}
  {asked vm : VirtualMachine}

/-- A creation that was refused its machine is over. -/
theorem of_refused {fault : StoreError} (h : k.Stage preparation writes left)
    (hmem : ⟨.createVirtualMachine asked, .error fault⟩ ∈ writes) :
    ∃ p, k.Settles preparation p ∧ asked = p.virtualMachine
      ∧ writes = [⟨.createVirtualMachine asked, .error fault⟩]
      ∧ left = pure (.error (.object .create VirtualMachine.resource.kind k.name fault)) := by
  cases h with
  | reading => cases hmem
  | refused settled =>
      cases List.mem_singleton.mp hmem
      exact ⟨_, settled, rfl, rfl, rfl⟩
  | halfway settled => cases List.mem_singleton.mp hmem
  | ended settled _ =>
      obtain _ | ⟨_, hmem⟩ := hmem
      cases List.mem_singleton.mp hmem

/-- A creation that was given its machine has its secret to create, or has done so. -/
theorem of_created (h : k.Stage preparation writes left)
    (hmem : ⟨.createVirtualMachine asked, .ok vm⟩ ∈ writes) :
    ∃ p, k.Settles preparation p ∧ asked = p.virtualMachine
      ∧ ((∃ next, left = .ask (.createSecret (p.secret vm)) next)
        ∨ ∃ answer outcome, writes = [⟨.createVirtualMachine asked, .ok vm⟩,
            ⟨.createSecret (p.secret vm), answer⟩] ∧ left = pure outcome
          ∧ ∀ stored, answer = .ok stored → outcome = .ok (ProviderId.encode k.name)) := by
  cases h with
  | reading => cases hmem
  | refused settled => cases List.mem_singleton.mp hmem
  | halfway settled =>
      cases List.mem_singleton.mp hmem
      exact ⟨_, settled, rfl, .inl ⟨_, rfl⟩⟩
  | ended settled succeeds =>
      obtain _ | ⟨_, hmem⟩ := hmem
      · exact ⟨_, settled, rfl, .inr ⟨_, _, rfl, rfl, succeeds⟩⟩
      · cases List.mem_singleton.mp hmem

/-- A secret is created for the machine that was created before. -/
theorem of_secret {s : Secret} {answer : Except StoreError Secret}
    (h : k.Stage preparation writes left) (hmem : ⟨.createSecret s, answer⟩ ∈ writes) :
    ∃ p vm, k.Settles preparation p ∧ s = p.secret vm
      ∧ ⟨.createVirtualMachine p.virtualMachine, .ok vm⟩ ∈ writes := by
  cases h with
  | reading => cases hmem
  | refused settled => cases List.mem_singleton.mp hmem
  | halfway settled => cases List.mem_singleton.mp hmem
  | ended settled succeeds =>
      obtain _ | ⟨_, hmem⟩ := hmem
      cases List.mem_singleton.mp hmem
      exact ⟨_, _, settled, rfl, List.mem_cons_self⟩

end Stage

end Creation

/-! ## Several creations -/

namespace Cluster

variable {ι : Type} [DecidableEq ι] {home : Credentials → Outcome String} {c d : Cluster}
  {creations : ι → Creation} {history : List (ι × Event)}
  {left : ι → Program (Outcome String)}

/-- What may become of a cluster by some calls of several creations, of which `left` is left. -/
def Creates (home : Credentials → Outcome String) (creations : ι → Creation) (c : Cluster)
    (history : List (ι × Event)) (left : ι → Program (Outcome String)) (d : Cluster) : Prop :=
  Path (Crew.Step (Step (.unused home))) ⟨fun i => (creations i).program, c⟩ history ⟨left, d⟩

namespace Creates

variable {i j : ι} {asked vm vm' : VirtualMachine}

/-- How far each creation has come. -/
theorem stage (h : c.Creates home creations history left d) (i : ι) :
    ∃ preparation writes, eventsOf i history = preparation ++ writes
      ∧ (∀ e ∈ preparation, e.call.isMutating = false)
      ∧ (∀ e, (i, e) ∈ history → e.call.isMutating = true → e ∈ writes)
      ∧ (creations i).Stage preparation writes (left i) := by
  obtain ⟨preparation, writes, hevents, reads, hstage⟩ :=
    Creation.stage_of_path ((path_crew_iff.mp h).1 i)
  refine ⟨preparation, writes, hevents, reads, fun e he hwrites => ?_, hstage⟩
  rw [← mem_eventsOf_iff, hevents] at he
  rcases List.mem_append.mp he with hread | hwritten
  · rw [reads e hread] at hwrites
    cases hwrites
  · exact hwritten

theorem path (h : c.Creates home creations history left d) :
    Path (fun u (x : ι × Event) w => Step (.unused home) u x.2 w) c history d :=
  (path_crew_iff.mp h).2

theorem step_of_mem (h : c.Creates home creations history left d) {e : Event}
    (he : (i, e) ∈ history) : ∃ u w, Step (.unused home) u e w :=
  Path.step_of_mem h.path he

theorem creates_of_mem (h : c.Creates home creations history left d) {x : ι × Event}
    (hx : x ∈ history) : x.2.call.isMutating = true → x.2.call.creates = true :=
  (createMachine_only_creates _ _ _).sort_of_path ((path_crew_iff.mp h).1 x.1) x.2
    (mem_eventsOf_iff.mpr hx)

theorem grown (h : c.Creates home creations history left d) : c.Grown history d :=
  .of_path h.path fun _ hx => h.creates_of_mem hx

/-- A plan is for the namespace that the credentials lead to. -/
theorem home_eq (h : c.Creates home creations history left d) {preparation : List Event} {p : Plan}
    (settled : (creations i).Settles preparation p) (hsub : preparation ⊆ eventsOf i history) :
    home (creations i).credentials = .ok p.ns := by
  obtain ⟨_, _, _, rfl, _⟩ := settled.calls
  obtain ⟨u, w, hclient, _⟩ := h.step_of_mem (mem_eventsOf_iff.mp (hsub List.mem_cons_self))
  exact hclient.symm

/-- A cluster stores what it is asked to create. -/
theorem created_eq (h : c.Creates home creations history left d)
    (hmem : (i, ⟨.createVirtualMachine asked, .ok vm⟩) ∈ history) :
    ∃ uid version, vm = asked.created uid version := by
  obtain ⟨u, w, uid, version, _, hcreated⟩ := h.step_of_mem hmem
  rcases cases_of_stored hcreated with ⟨⟨_, _, _, hfault⟩, _⟩ | ⟨_, hok, _⟩
  · cases hfault
  · exact ⟨uid, version, Except.ok.inj hok⟩

/-- Secrets are never refused. -/
theorem secret_eq (h : c.Creates home creations history left d) {s : Secret}
    {answer : Except StoreError Secret} (hmem : (i, ⟨.createSecret s, answer⟩) ∈ history) :
    answer = .ok s := by
  obtain ⟨_, _, hstep⟩ := h.step_of_mem hmem
  exact congrArg Prod.fst hstep

/-- A machine that was created is that of a plan; and when its creation is over, the secret of the
    plan was the only one that it created. -/
theorem of_created (h : c.Creates home creations history left d)
    (hmem : (i, ⟨.createVirtualMachine asked, .ok vm⟩) ∈ history) :
    ∃ p preparation, (creations i).Settles preparation p
      ∧ home (creations i).credentials = .ok p.ns ∧ asked = p.virtualMachine
      ∧ ∀ outcome, left i = pure outcome → outcome = .ok (ProviderId.encode (creations i).name)
        ∧ (eventsOf i history).filterMap Event.secret? = [p.secret vm] := by
  obtain ⟨preparation, writes, hevents, reads, hwritten, hstage⟩ := h.stage i
  obtain ⟨p, settled, rfl, hleft⟩ := hstage.of_created (hwritten _ hmem rfl)
  have hhome := h.home_eq settled (by rw [hevents]; exact List.subset_append_left _ _)
  refine ⟨p, preparation, settled, hhome, rfl, fun outcome hover => ?_⟩
  rcases hleft with ⟨next, hask⟩ | ⟨answer, outcome', rfl, hdone, hsucceeds⟩
  · rw [hask] at hover
    cases hover
  · rw [hdone] at hover
    cases hover
    have hsecret : (i, ⟨.createSecret (p.secret vm), answer⟩) ∈ history := by
      rw [← mem_eventsOf_iff, hevents]
      simp
    obtain rfl := h.secret_eq hsecret
    refine ⟨hsucceeds _ rfl, ?_⟩
    rw [hevents, List.filterMap_append,
      List.filterMap_eq_nil_iff.mpr fun e he => Event.secret?_of_read (reads e he)]
    rfl

/-- A machine that was created has the name and the namespace that its creation asks for. -/
theorem key_eq (h : c.Creates home creations history left d)
    (hmem : (i, vm) ∈ gained Event.machine? history) :
    ∃ ns, home (creations i).credentials = .ok ns
      ∧ vm.metadata.key = (ns, (creations i).name) := by
  obtain ⟨asked, he⟩ := mem_gained_machine_iff.mp hmem
  obtain ⟨p, _, settled, hhome, rfl, _⟩ := h.of_created he
  obtain ⟨uid, version, rfl⟩ := h.created_eq he
  refine ⟨p.ns, hhome, ?_⟩
  rw [← settled.name_eq]
  rfl

/-- **Creations do not share a machine**, and none creates two. -/
theorem eq_of_name_eq (h : c.Creates home creations history left d)
    (hi : (i, vm) ∈ gained Event.machine? history) (hj : (j, vm') ∈ gained Event.machine? history)
    (hname : (creations i).name = (creations j).name)
    (hhome : home (creations i).credentials = home (creations j).credentials) :
    i = j ∧ vm = vm' := by
  obtain ⟨ns, hns, hkey⟩ := h.key_eq hi
  obtain ⟨ns', hns', hkey'⟩ := h.key_eq hj
  rw [← hhome, hns] at hns'
  cases hns'
  rw [← hname] at hkey'
  exact Prod.mk.inj (List.inj_on_of_nodup_map h.grown.keys hi hj (hkey.trans hkey'.symm))

/-- A secret that was created belongs to the machine that the same creation created before. -/
theorem belongs_of_secret (h : c.Creates home creations history left d) {s : Secret}
    (hmem : (j, s) ∈ gained Event.secret? history) :
    ∃ vm, (j, vm) ∈ gained Event.machine? history ∧ Belongs vm s := by
  obtain ⟨asked, he⟩ := mem_gained_secret_iff.mp hmem
  cases h.secret_eq he
  obtain ⟨preparation, writes, hevents, _, hwritten, hstage⟩ := h.stage j
  obtain ⟨p, vm, settled, rfl, hmachine⟩ := hstage.of_secret (hwritten _ he rfl)
  have hmachine : (j, ⟨.createVirtualMachine p.virtualMachine, .ok vm⟩) ∈ history := by
    rw [← mem_eventsOf_iff, hevents]
    exact List.mem_append_right _ hmachine
  obtain ⟨uid, version, rfl⟩ := h.created_eq hmachine
  exact ⟨_, mem_gained_machine_iff.mpr ⟨_, hmachine⟩, p.belongs_secret settled uid version⟩

/-- The secrets that a machine owns are those of the creation that created it. -/
theorem secretsOf_eq (h : c.Creates home creations history left d)
    (hmem : (i, vm) ∈ gained Event.machine? history) :
    d.secretsOf vm = (eventsOf i history).filterMap Event.secret? := by
  obtain ⟨uid, huid, hunused⟩ := h.grown.unused _ hmem
  have howned (x : ι × Secret) (hx : x ∈ gained Event.secret? history) :
      isOwnedBy uid x.2 = decide (x.1 = i) := by
    obtain ⟨vm', hmem', hbelongs⟩ := h.belongs_of_secret hx
    rw [Bool.eq_iff_iff, hbelongs.isOwnedBy_iff, decide_eq_true_iff]
    constructor
    · intro huid'
      exact congrArg Prod.fst
        (List.inj_on_of_nodup_map h.grown.uids hmem' hmem (huid'.trans huid.symm))
    · intro hlabel
      rw [hlabel] at hmem'
      rw [(h.eq_of_name_eq hmem' hmem rfl rfl).2]
      exact huid
  calc d.secretsOf vm
      = c.secrets.filter (isOwnedBy uid)
          ++ ((gained Event.secret? history).map Prod.snd).filter (isOwnedBy uid) := by
        rw [secretsOf_of_uid huid, h.grown.secrets, List.filter_append]
    _ = ((gained Event.secret? history).map Prod.snd).filter (isOwnedBy uid) := by
        rw [List.filter_eq_nil_iff.mpr fun s hs => by rw [hunused.2 s hs]; exact Bool.false_ne_true,
          List.nil_append]
    _ = ((gained Event.secret? history).filter fun x => x.1 = i).map Prod.snd := by
        rw [List.filter_map]
        exact congrArg _ (List.filter_congr howned)
    _ = (eventsOf i history).filterMap Event.secret? := map_snd_gained_of_label i history

/-- A creation is refused its machine only if one of its name exists, and it ends with that. -/
theorem of_refused (h : c.Creates home creations history left d) {fault : StoreError}
    (hmem : (i, ⟨.createVirtualMachine asked, .error fault⟩) ∈ history) :
    ∃ ns reason, home (creations i).credentials = .ok ns ∧ fault = .conflict reason
      ∧ left i = pure (.error (.object .create VirtualMachine.resource.kind (creations i).name
          (.conflict reason)))
      ∧ (∀ s answer, (i, ⟨.createSecret s, answer⟩) ∉ history)
      ∧ (c.machine? ns (creations i).name ≠ none
        ∨ ∃ j vm, j ≠ i ∧ (j, vm) ∈ gained Event.machine? history
          ∧ vm.metadata.key = (ns, (creations i).name)) := by
  obtain ⟨preparation, writes, hevents, _, hwritten, hstage⟩ := h.stage i
  obtain ⟨p, settled, rfl, rfl, hleft⟩ := hstage.of_refused (hwritten _ hmem rfl)
  have hhome := h.home_eq settled (by rw [hevents]; exact List.subset_append_left _ _)
  have hkey : p.virtualMachine.metadata.key = (p.ns, (creations i).name) := by
    rw [← settled.name_eq]
    rfl
  obtain ⟨before, after, rfl⟩ := List.append_of_mem hmem
  obtain ⟨u, hbefore, w, ⟨uid, version, _, hcreated⟩, _⟩ := path_append_iff.mp h.path
  have hgrown : c.Grown before u :=
    .of_path hbefore fun x hx => h.creates_of_mem (List.mem_append_left _ hx)
  rcases cases_of_stored hcreated with ⟨⟨old, reason, hold, hconflict⟩, _⟩ | ⟨_, hok, _⟩
  · cases hconflict
    rw [hkey] at hold
    refine ⟨p.ns, reason, hhome, rfl, hleft, fun s answer hsecret => ?_, ?_⟩
    · cases List.mem_singleton.mp (hwritten _ hsecret rfl)
    · rcases (hgrown.machines (p.ns, (creations i).name) old).mp hold with hc | ⟨j, hj, hsame⟩
      · exact .inl fun hnone => by cases hnone.symm.trans hc
      · obtain ⟨asked, he⟩ := mem_gained_machine_iff.mp hj
        refine .inr ⟨j, old, ?_,
          mem_gained_machine_iff.mpr ⟨asked, List.mem_append_left _ he⟩, hsame⟩
        rintro rfl
        cases List.mem_singleton.mp (hwritten _ (List.mem_append_left _ he) rfl)
  · cases hok

/-- A creation that was given its machine leaves it with one secret. -/
theorem of_ended (h : c.Creates home creations history left d) {outcome : Outcome String}
    (hmem : (i, vm) ∈ gained Event.machine? history) (hover : left i = pure outcome) :
    outcome = .ok (ProviderId.encode (creations i).name)
      ∧ d.machine? vm.metadata.key.1 vm.metadata.key.2 = some vm
      ∧ ∃ s, (i, s) ∈ gained Event.secret? history ∧ d.secretsOf vm = [s] ∧ Belongs vm s := by
  obtain ⟨asked, he⟩ := mem_gained_machine_iff.mp hmem
  obtain ⟨p, preparation, settled, _, rfl, hend⟩ := h.of_created he
  obtain ⟨rfl, hsecrets⟩ := hend outcome hover
  obtain ⟨uid, version, rfl⟩ := h.created_eq he
  refine ⟨rfl, (h.grown.machines _ _).mpr (.inr ⟨i, hmem, rfl⟩), _, ?_,
    (h.secretsOf_eq hmem).trans hsecrets, p.belongs_secret settled uid version⟩
  obtain ⟨e, he', hs⟩ := List.mem_filterMap.mp (hsecrets ▸ List.mem_singleton_self _)
  exact mem_gained_iff.mpr ⟨e, mem_eventsOf_iff.mp he', hs⟩

end Creates

/-- **Creations beside each other neither share nor lose a machine.** Whatever machines are created
    at the same time, and whatever order their calls come in: of those that ask for one name in one
    namespace at most one is given its machine, and none if there was one before. Any other that
    gets as far as asking ends with the conflict that it is answered, and creates no secret. One
    that was given its machine and is over leaves it with the one secret that it created, which
    belongs to it. -/
theorem creations_neither_share_nor_lose_machines
    (h : c.Creates home creations history left d) :
    (∀ i j vm vm', (i, vm) ∈ gained Event.machine? history →
        (j, vm') ∈ gained Event.machine? history → (creations i).name = (creations j).name →
        home (creations i).credentials = home (creations j).credentials → i = j)
      ∧ (∀ i vm, (i, vm) ∈ gained Event.machine? history →
        ∃ ns, home (creations i).credentials = .ok ns
          ∧ vm.metadata.key = (ns, (creations i).name)
          ∧ c.machine? ns (creations i).name = none)
      ∧ (∀ i asked fault, (i, ⟨.createVirtualMachine asked, .error fault⟩) ∈ history →
        ∃ ns reason, home (creations i).credentials = .ok ns ∧ fault = .conflict reason
          ∧ left i = pure (.error (.object .create VirtualMachine.resource.kind
              (creations i).name (.conflict reason)))
          ∧ (∀ s answer, (i, ⟨.createSecret s, answer⟩) ∉ history)
          ∧ (c.machine? ns (creations i).name ≠ none
            ∨ ∃ j vm, j ≠ i ∧ (j, vm) ∈ gained Event.machine? history
              ∧ vm.metadata.key = (ns, (creations i).name)))
      ∧ ∀ i vm outcome, (i, vm) ∈ gained Event.machine? history → left i = pure outcome →
        outcome = .ok (ProviderId.encode (creations i).name)
          ∧ d.machine? vm.metadata.key.1 vm.metadata.key.2 = some vm
          ∧ ∃ s, (i, s) ∈ gained Event.secret? history ∧ d.secretsOf vm = [s] ∧ Belongs vm s := by
  refine ⟨fun i j vm vm' hi hj hname hhome => (h.eq_of_name_eq hi hj hname hhome).1,
    fun i vm hi => ?_, fun i asked fault hi => h.of_refused hi,
    fun i vm outcome hi hover => h.of_ended hi hover⟩
  obtain ⟨ns, hhome, hkey⟩ := h.key_eq hi
  have hnone := h.grown.new _ hi
  rw [hkey] at hnone
  exact ⟨ns, hhome, hkey, hnone⟩

/-- Two creations of one name that have both read all they need before either of them writes. -/
theorem creations_of_one_name_meet :
    ∃ (history : List (Bool × Event)) (left : Bool → Program (Outcome String)) (d : Cluster),
      Creates (fun _ => .ok "default") (fun _ => ⟨"a", {}, {}⟩) {} history left d
        ∧ left true = pure (.ok (ProviderId.encode "a"))
        ∧ left false = pure (.error (.object .create VirtualMachine.resource.kind "a"
            (.conflict "virtualmachines.kubevirt.io \"a\" already exists")))
        ∧ ∃ vm s, d.machine? "default" "a" = some vm ∧ d.secretsOf vm = [s] ∧ Belongs vm s := by
  let k : Creation := ⟨"a", {}, {}⟩
  let p : Plan := .bare "a" "default" 0 ""
  let vm : VirtualMachine := p.created "uid-1" "1001"
  let taken : StoreError := .conflict "virtualmachines.kubevirt.io \"a\" already exists"
  let lost : DriverError := .object .create VirtualMachine.resource.kind "a" taken
  let reads : List Event :=
    [⟨.client {}, .ok "default"⟩, ⟨.now, (0 : Nat)⟩, ⟨.serverVersion {}, .ok "v1.28.2"⟩]
  let created : Event := ⟨.createVirtualMachine p.virtualMachine, .ok vm⟩
  let refused : Event := ⟨.createVirtualMachine p.virtualMachine, .error taken⟩
  let secret : Event := ⟨.createSecret (p.secret vm), .ok (p.secret vm)⟩
  let history : List (Bool × Event) := reads.map (fun e => (true, e))
    ++ reads.map (fun e => (false, e)) ++ [(true, created), (false, refused), (true, secret)]
  let left : Bool → Program (Outcome String) := fun i =>
    if i then pure (.ok (ProviderId.encode "a")) else pure (.error lost)
  have hfirst : k.program.Runs (reads ++ [created, secret]) (.ok (ProviderId.encode "a")) :=
    .ask _ (.ask _ (.ask _ (.ask _ (.ask _ (.done _)))))
  have hsecond : k.program.Runs (reads ++ [refused]) (.error lost) :=
    .ask _ (.ask _ (.ask _ (.ask _ (.done _))))
  have hunused (uid : String) : IsUnused {} uid :=
    ⟨fun _ _ _ hvm => (by cases hvm), fun _ hs => (by cases hs)⟩
  have hother : (putMachine {} vm).IsUnused "uid-2" :=
    (hunused "uid-2").putMachine fun huid => by
      have hsame : "uid-1" = "uid-2" := Option.some.inj huid
      exact absurd hsame (by decide)
  have hcreates : Creates (fun _ => .ok "default") (fun _ => k) {} history left
      (withPlan {} p "uid-1" "1001") := by
    refine path_crew_iff.mpr ⟨fun i => ?_, ?_⟩
    · cases i
      · exact path_done_iff.mpr hsecond
      · exact path_done_iff.mpr hfirst
    · exact ⟨_, ⟨rfl, rfl⟩, _, rfl, _, rfl, _, ⟨rfl, rfl⟩, _, rfl, _, rfl,
        _, ⟨"uid-1", "1001", hunused _, rfl⟩, _, ⟨"uid-2", "1002", hother, rfl⟩, _, rfl, rfl⟩
  have hgained : (true, vm) ∈ gained Event.machine? history := List.mem_singleton_self _
  obtain ⟨_, _, _, hended⟩ := creations_neither_share_nor_lose_machines hcreates
  obtain ⟨_, hvm, s, _, hsecrets, hbelongs⟩ := hended true vm _ hgained rfl
  exact ⟨history, left, _, hcreates, rfl, rfl, vm, s, hvm, hsecrets, hbelongs⟩

end Cluster

end MachineDriver
