import MachineDriver.Proofs.Attachment
import MachineDriver.Proofs.Pairing

set_option autoImplicit false

/-!
# The machine that a cluster is sent is coherent

A machine is one object made of many parts that refer to each other: disks to volumes, network cards
to networks, a volume to the template that makes it, and another one to a secret that is created
only later. A cluster takes an object whose references dangle, and it would fail when it starts.

`VirtualMachine.Coherent` says that the references of a machine hold and that all else is as its
specification asks. The main statement, `createMachine_sends_coherent_machine`, is about every
creation that gets as far as sending a machine, whatever its calls are answered. -/

namespace MachineDriver

open Program

/-! ## Coherence -/

/-- The template of the volume that a machine starts from: it has the name and the namespace of the
    machine, and its class and size are those of a specification. -/
structure DataVolumeTemplate.Coherent (t : DataVolumeTemplate) (name ns : String)
    (spec : MachineSpec) : Prop where
  name_eq : t.metadata.name = some name
  ns_eq : t.metadata.ns? = some ns
  claim : ∃ claim sizes, t.spec.pvc = some claim
    ∧ claim.storageClassName = some spec.storageClassName
    ∧ claim.resources = some ⟨none, some sizes⟩ ∧ sizes.get? "storage" = some spec.pvcSize

namespace VirtualMachine

/-- A machine while it runs. -/
def machineInstance (vm : VirtualMachine) : Instance :=
  vm.spec.template.spec

/-- The references of a machine hold, its name and namespace are the given ones, and all else is as
    a specification asks. -/
structure Coherent (vm : VirtualMachine) (name ns : String) (spec : MachineSpec) : Prop where
  name_eq : vm.metadata.name = some name
  ns_eq : vm.metadata.ns? = some ns
  labels : ∃ labels, vm.metadata.labels = some labels ∧ ∀ key,
    labels.get? key = if key = machineLabel then some name else spec.tags.get? key
  instanceLabels : ∃ m labels, vm.spec.template.metadata = some m ∧ m.labels = some labels
    ∧ labels.get? machineLabel = some name
  disks : vm.machineInstance.domain.devices.disks.map Disk.name
    = vm.machineInstance.volumes.map Volume.name
  distinct : (vm.machineInstance.volumes.map Volume.name).Nodup
  /-- A volume is made of a template or holds settings, and never both. -/
  sources : ∀ v ∈ vm.machineInstance.volumes, v.dataVolume.isSome = !v.cloudInitNoCloud.isSome
  cards : vm.machineInstance.domain.devices.interfaces.map Interface.name
    = vm.machineInstance.networks.map Network.name
  /-- The cards and the networks are those that the specification lists, and perhaps the shared
      one. -/
  layout : ∃ l, NetworkLayout.ofSpecs spec.networks = .ok l
    ∧ vm.machineInstance.domain.devices.interfaces = l.interfaces
    ∧ vm.machineInstance.networks = l.networks
  /-- The machine starts from one volume, and this is the volume of the only template. -/
  boot : vm.machineInstance.volumes.filterMap Volume.dataVolume = [⟨name⟩]
  template : ∃ t, vm.spec.dataVolumeTemplates = [t] ∧ t.Coherent name ns spec
  cpu : vm.machineInstance.domain.cpu = spec.cpu
  memory : vm.machineInstance.domain.memory = spec.memory
  resources : vm.machineInstance.domain.resources = spec.resources
  dnsPolicy : vm.machineInstance.dnsPolicy = spec.dnsPolicy
  dnsConfig : vm.machineInstance.dnsConfig = spec.dnsConfig

end VirtualMachine

namespace Plan

theorem coherent_bootVolume (p : Plan) : p.bootVolume.Coherent p.name p.ns p.spec where
  name_eq := rfl
  ns_eq := rfl
  claim := ⟨_, _, rfl, rfl, rfl, rfl⟩

/-- The machine of a plan is coherent if its networks are those of its specification. -/
theorem coherent_virtualMachine {p : Plan}
    (hnetworks : NetworkLayout.ofSpecs p.spec.networks = .ok p.networks) :
    p.virtualMachine.Coherent p.name p.ns p.spec where
  name_eq := rfl
  ns_eq := rfl
  labels := ⟨machineLabels p.name p.spec.tags, rfl, TextMap.get?_insert _ _ _⟩
  instanceLabels := ⟨_, _, rfl, rfl, rfl⟩
  disks := rfl
  distinct := by
    show [bootDisk, settingsDisk].Nodup
    decide
  sources := by
    intro v hv
    rcases List.mem_cons.mp hv with rfl | hv
    · rfl
    · rw [List.mem_singleton.mp hv]
      rfl
  cards := by
    have hlayout : p.networks = _ :=
      (Except.ok.inj ((NetworkLayout.ofSpecs_eq p.spec.networks).symm.trans hnetworks)).symm
    show p.networks.interfaces.map Interface.name = p.networks.networks.map Network.name
    rw [hlayout]
    exact NetworkLayout.map_name_interfacesOf p.spec.networks
  layout := ⟨p.networks, hnetworks, rfl, rfl⟩
  boot := rfl
  template := ⟨p.bootVolume, rfl, p.coherent_bootVolume⟩
  cpu := rfl
  memory := rfl
  resources := rfl
  dnsPolicy := rfl
  dnsConfig := rfl

/-- The secret of a plan lies beside the machine of the plan, unless the cluster says that it made
    the machine elsewhere. -/
theorem ns_secret {p : Plan} {created : VirtualMachine}
    (hsame : ∀ ns, created.metadata.ns? = some ns → ns = p.ns) :
    (p.secret created).metadata.ns? = some p.ns := by
  show (created.metadata.ns?.orElse fun _ => some p.ns) = some p.ns
  cases hns : created.metadata.ns? with
  | none => rfl
  | some ns => exact congrArg some (hsame ns hns)

end Plan

/-! ## What is sent -/

variable {name : String} {spec : MachineSpec} {credentials : Credentials}

/-- A creation that sends a machine sends the machine of a settled plan. -/
theorem cases_of_sent {events : List Event} {outcome : Outcome String} {vm : VirtualMachine}
    {answer : Except StoreError VirtualMachine}
    (h : (createMachine name spec credentials).Runs events outcome)
    (hsent : ⟨.createVirtualMachine vm, answer⟩ ∈ events) :
    ∃ (p : Plan) (preparation : List Event), p.Settled name spec credentials preparation
      ∧ vm = p.virtualMachine
      ∧ ((∃ fault, answer = .error fault
          ∧ events = preparation ++ [⟨.createVirtualMachine vm, answer⟩])
        ∨ ∃ created stored, answer = .ok created
          ∧ events = preparation ++ [⟨.createVirtualMachine vm, answer⟩,
              ⟨.createSecret (p.secret created), stored⟩]) := by
  rcases cases_of_runs_createMachine h with ⟨_, _, hprepare⟩
    | ⟨p, preparation, writes, rfl, settled, hcommit⟩
  · have hread := hprepare.sort_of_mem (Plan.prepare_reads name spec credentials) _ hsent
    cases hread
  · have hwritten : ⟨.createVirtualMachine vm, answer⟩ ∈ writes := by
      rcases List.mem_append.mp hsent with hread | hwritten
      · cases settled.reads _ hread
      · exact hwritten
    refine ⟨p, preparation, settled, ?_⟩
    rcases Plan.cases_of_runs_commit hcommit with ⟨fault, rfl, _⟩ | ⟨created, fault, rfl, _⟩
      | ⟨created, stored, rfl, _⟩
    · cases List.mem_singleton.mp hwritten
      exact ⟨rfl, .inl ⟨fault, rfl, rfl⟩⟩
    · rcases List.mem_cons.mp hwritten with heq | hsecret
      · cases heq
        exact ⟨rfl, .inr ⟨created, .error fault, rfl, rfl⟩⟩
      · cases List.mem_singleton.mp hsecret
    · rcases List.mem_cons.mp hwritten with heq | hsecret
      · cases heq
        exact ⟨rfl, .inr ⟨created, .ok stored, rfl, rfl⟩⟩
      · cases List.mem_singleton.mp hsecret

/-- A cluster creates a machine in the namespace that it is asked for. -/
theorem ns_of_created {terms : Cluster.Terms} {c d : Cluster} {events : List Event}
    {vm created : VirtualMachine} (hpath : Path (Cluster.Step terms) c events d)
    (hsent : ⟨.createVirtualMachine vm, .ok created⟩ ∈ events) :
    created.metadata.ns? = vm.metadata.ns? := by
  obtain ⟨u, w, uid, version, _, hcreated⟩ := hpath.step_of_mem hsent
  rcases cases_of_stored hcreated with ⟨⟨_, _, _, hfault⟩, _⟩ | ⟨_, hok, _⟩
  · cases hfault
  · rw [Except.ok.inj hok]
    rfl

/-- **The machine that is sent is coherent**, whatever the calls of its creation are answered: its
    references hold, it lies in the namespace of the client, and all else is as the specification
    asks. If the cluster creates it, then the secret that it refers to is created next, in the
    namespace of the machine unless the answer says that the machine is elsewhere, which no cluster
    says that answers every call as it is asked to. -/
theorem createMachine_sends_coherent_machine {events : List Event} {outcome : Outcome String}
    {vm : VirtualMachine} {answer : Except StoreError VirtualMachine}
    (h : (createMachine name spec credentials).Runs events outcome)
    (hsent : ⟨.createVirtualMachine vm, answer⟩ ∈ events) :
    ∃ ns, ⟨.client credentials, .ok ns⟩ ∈ events ∧ vm.Coherent name ns spec
      ∧ ∀ created, answer = .ok created → ∃ before s stored,
        events = before ++ [⟨.createVirtualMachine vm, .ok created⟩, ⟨.createSecret s, stored⟩]
          ∧ (∃ secretName, vm.settingsSecrets = [secretName] ∧ s.metadata.name = some secretName)
          ∧ ((∀ ns', created.metadata.ns? = some ns' → ns' = ns) → s.metadata.ns? = some ns)
          ∧ ∀ terms c d, Path (Cluster.Step terms) c events d → s.metadata.ns? = some ns := by
  obtain ⟨p, preparation, settled, rfl, hevents⟩ := cases_of_sent h hsent
  have hclient : ⟨.client credentials, .ok p.ns⟩ ∈ preparation := by
    obtain ⟨_, _, _, rfl, _⟩ := settled.calls
    exact List.mem_cons_self
  have hcoherent := Plan.coherent_virtualMachine (settled.spec_eq ▸ settled.networks_eq)
  rw [settled.name_eq, settled.spec_eq] at hcoherent
  refine ⟨p.ns, ?_, hcoherent, ?_⟩
  · rcases hevents with ⟨_, _, rfl⟩ | ⟨_, _, _, rfl⟩ <;> exact List.mem_append_left _ hclient
  · rintro created rfl
    rcases hevents with ⟨_, hfault, _⟩ | ⟨_, stored, hcreated, rfl⟩
    · cases hfault
    · cases hcreated
      refine ⟨preparation, p.secret created, stored, rfl, ⟨p.secretName, rfl, rfl⟩, Plan.ns_secret,
        fun terms c d hpath => Plan.ns_secret fun ns' hns' => ?_⟩
      have hns : some ns' = some p.ns := hns'.symm.trans (ns_of_created hpath hsent)
      exact Option.some.inj hns

/-- A machine of two networks, one of whose tags has the label of its name. -/
theorem createMachine_sends_machine_of_two_networks :
    ∃ events outcome vm answer spec, (createMachine "a" spec {}).Runs events outcome
      ∧ ⟨.createVirtualMachine vm, answer⟩ ∈ events ∧ spec.networks.length = 2
      ∧ ∃ ns, vm.Coherent "a" ns spec := by
  let spec : MachineSpec :=
    { networks := [⟨"front", true⟩, ⟨"back", false⟩]
      tags := TextMap.empty.insert machineLabel "other" }
  let layout : NetworkLayout :=
    { interfaces := NetworkLayout.interfacesOf spec.networks
      networks := NetworkLayout.networksOf spec.networks
      networkData := some (NetworkLayout.settings 2).toText }
  let p : Plan := { Plan.bare "a" "default" 0 "" with spec := spec, networks := layout }
  let sent : Event := ⟨.createVirtualMachine p.virtualMachine, .ok (p.created "uid-1" "1001")⟩
  let events : List Event :=
    [⟨.client {}, .ok "default"⟩, ⟨.now, (0 : Nat)⟩, ⟨.serverVersion {}, .ok "v1.28.2"⟩, sent,
      ⟨.createSecret (p.secret (p.created "uid-1" "1001")),
        .ok (p.secret (p.created "uid-1" "1001"))⟩]
  have hruns : (createMachine "a" spec {}).Runs events (.ok (ProviderId.encode "a")) :=
    .ask _ (.ask _ (.ask _ (.ask _ (.ask _ (.done _)))))
  have hsent : sent ∈ events := by simp [events]
  obtain ⟨ns, _, hcoherent, _⟩ := createMachine_sends_coherent_machine hruns hsent
  exact ⟨events, _, _, _, spec, hruns, hsent, rfl, ns, hcoherent⟩

end MachineDriver
