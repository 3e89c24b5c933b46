import MachineDriver.Machine.Spec
import MachineDriver.Proofs.Coherence
import MachineDriver.Proofs.Lossless

set_option autoImplicit false

/-!
# Objects survive documents

An object that is written as a document is read back as it was. There is one statement for each
type, which follows the fields of its record, from the parts of objects up to machines, data volumes
and specifications.

The metadata of objects come from elsewhere, with times and with whatever other clients noted about
the fields that they manage. Objects are restored if their metadata are; nothing else about a value
matters. -/

namespace MachineDriver

open Json (Codec Field Record)

/-! ## Hardware -/

theorem Cpu.faithful : Cpu.codec.Faithful :=
  Record.strict_faithful (by decide) (fun _ => rfl) <|
    .cons (.optional .uint32)
    <| .cons (.optional .uint32)
    <| .cons (.optional .uint32)
    <| .cons (.optional .text)
    <| .cons (.optional .bool) .nil

theorem Hugepages.faithful : Hugepages.codec.Faithful :=
  Record.strict_faithful (by decide) (fun _ => rfl) <|
    .cons (.required .text) .nil

theorem Memory.faithful : Memory.codec.Faithful :=
  Record.strict_faithful (by decide) (fun _ => rfl) <|
    .cons (.optional .text) <| .cons (.optional Hugepages.faithful) .nil

theorem Resources.faithful : Resources.codec.Faithful :=
  Record.strict_faithful (by decide) (fun _ => rfl) <|
    .cons (.mapping .text) <| .cons (.mapping .text) <| .cons .flag .nil

theorem DiskTarget.faithful : DiskTarget.codec.Faithful :=
  Record.strict_faithful (by decide) (fun _ => rfl) <|
    .cons (.required .text) .nil

theorem Disk.faithful : Disk.codec.Faithful :=
  Record.strict_faithful (by decide) (fun _ => rfl) <|
    .cons (.required .text) <| .cons (.optional DiskTarget.faithful) .nil

theorem Binding.faithful : Binding.codec.Faithful :=
  Record.strict_faithful (by decide) (fun _ => rfl) .nil

theorem Interface.faithful : Interface.codec.Faithful :=
  Record.strict_faithful (by decide) (fun _ => rfl) <|
    .cons (.required .text)
    <| .cons (.optional Binding.faithful)
    <| .cons (.optional Binding.faithful) .nil

theorem Devices.faithful : Devices.codec.Faithful :=
  Record.strict_faithful (by decide) (fun _ => rfl) <|
    .cons (.many Disk.faithful) <| .cons (.many Interface.faithful) .nil

theorem Domain.faithful : Domain.codec.Faithful :=
  Record.strict_faithful (by decide) (fun _ => rfl) <|
    .cons (.optional Cpu.faithful)
    <| .cons (.optional Memory.faithful)
    <| .cons (.defaulted Resources.faithful)
    <| .cons (.defaulted Devices.faithful) .nil

/-! ## Networks and volumes -/

theorem PodNetwork.faithful : PodNetwork.codec.Faithful :=
  Record.strict_faithful (by decide) (fun _ => rfl) <|
    .cons (.optional .text) .nil

theorem MultusNetwork.faithful : MultusNetwork.codec.Faithful :=
  Record.strict_faithful (by decide) (fun _ => rfl) <|
    .cons (.required .text) <| .cons .flag .nil

theorem Network.faithful : Network.codec.Faithful :=
  Record.strict_faithful (by decide) (fun _ => rfl) <|
    .cons (.required .text)
    <| .cons (.optional PodNetwork.faithful)
    <| .cons (.optional MultusNetwork.faithful) .nil

theorem LocalReference.faithful : LocalReference.codec.Faithful :=
  Record.opened_faithful (by decide) (fun _ => rfl) <|
    .cons (.lenient .text) .nil

theorem DataVolumeRef.faithful : DataVolumeRef.codec.Faithful :=
  Record.strict_faithful (by decide) (fun _ => rfl) <|
    .cons (.required .text) .nil

theorem CloudInit.faithful : CloudInit.codec.Faithful :=
  Record.strict_faithful (by decide) (fun _ => rfl) <|
    .cons (.optional LocalReference.faithful) <| .cons (.optional .text) .nil

theorem Volume.faithful : Volume.codec.Faithful :=
  Record.strict_faithful (by decide) (fun _ => rfl) <|
    .cons (.required .text)
    <| .cons (.optional DataVolumeRef.faithful)
    <| .cons (.optional CloudInit.faithful) .nil

/-! ## Name resolution and placement -/

theorem DnsOption.faithful : DnsOption.codec.Faithful :=
  Record.opened_faithful (by decide) (fun _ => rfl) <|
    .cons (.optional .text) <| .cons (.optional .text) .nil

theorem DnsConfig.faithful : DnsConfig.codec.Faithful :=
  Record.opened_faithful (by decide) (fun _ => rfl) <|
    .cons (.optional (.list .text))
    <| .cons (.optional (.list DnsOption.faithful))
    <| .cons (.optional (.list .text)) .nil

theorem KeyRequirement.faithful : KeyRequirement.codec.Faithful :=
  Record.opened_faithful (by decide) (fun _ => rfl) <|
    .cons (.lenient .text) <| .cons (.lenient .text) <| .cons (.optional (.list .text)) .nil

theorem ObjectSelector.faithful : ObjectSelector.codec.Faithful :=
  Record.opened_faithful (by decide) (fun _ => rfl) <|
    .cons (.optional (.list KeyRequirement.faithful)) <| .cons (.optional (.map .text)) .nil

theorem NodeTerm.faithful : NodeTerm.codec.Faithful :=
  Record.opened_faithful (by decide) (fun _ => rfl) <|
    .cons (.optional (.list KeyRequirement.faithful))
    <| .cons (.optional (.list KeyRequirement.faithful)) .nil

theorem NodeSelector.faithful : NodeSelector.codec.Faithful :=
  Record.opened_faithful (by decide) (fun _ => rfl) <|
    .cons (.lenient (.list NodeTerm.faithful)) .nil

theorem PreferredTerm.faithful : PreferredTerm.codec.Faithful :=
  Record.opened_faithful (by decide) (fun _ => rfl) <|
    .cons (.lenient NodeTerm.faithful) <| .cons (.lenient .int32) .nil

theorem NodeAffinity.faithful : NodeAffinity.codec.Faithful :=
  Record.opened_faithful (by decide) (fun _ => rfl) <|
    .cons (.optional (.list PreferredTerm.faithful)) <| .cons (.optional NodeSelector.faithful) .nil

theorem WorkloadTerm.faithful : WorkloadTerm.codec.Faithful :=
  Record.opened_faithful (by decide) (fun _ => rfl) <|
    .cons (.optional ObjectSelector.faithful)
    <| .cons (.optional (.list .text))
    <| .cons (.optional (.list .text))
    <| .cons (.optional ObjectSelector.faithful)
    <| .cons (.optional (.list .text))
    <| .cons (.lenient .text) .nil

theorem WeightedWorkloadTerm.faithful : WeightedWorkloadTerm.codec.Faithful :=
  Record.opened_faithful (by decide) (fun _ => rfl) <|
    .cons (.lenient WorkloadTerm.faithful) <| .cons (.lenient .int32) .nil

theorem WorkloadAffinity.faithful : WorkloadAffinity.codec.Faithful :=
  Record.opened_faithful (by decide) (fun _ => rfl) <|
    .cons (.optional (.list WeightedWorkloadTerm.faithful))
    <| .cons (.optional (.list WorkloadTerm.faithful)) .nil

theorem Affinity.faithful : Affinity.codec.Faithful :=
  Record.opened_faithful (by decide) (fun _ => rfl) <|
    .cons (.optional NodeAffinity.faithful)
    <| .cons (.optional WorkloadAffinity.faithful)
    <| .cons (.optional WorkloadAffinity.faithful) .nil

/-! ## Claims and sources -/

theorem LocalTypedReference.faithful : LocalTypedReference.codec.Faithful :=
  Record.opened_faithful (by decide) (fun _ => rfl) <|
    .cons (.optional .text) <| .cons (.lenient .text) <| .cons (.lenient .text) .nil

theorem TypedReference.faithful : TypedReference.codec.Faithful :=
  Record.opened_faithful (by decide) (fun _ => rfl) <|
    .cons (.optional .text)
    <| .cons (.lenient .text)
    <| .cons (.lenient .text)
    <| .cons (.optional .text) .nil

theorem VolumeResources.faithful : VolumeResources.codec.Faithful :=
  Record.opened_faithful (by decide) (fun _ => rfl) <|
    .cons (.optional (.map .text)) <| .cons (.optional (.map .text)) .nil

theorem ClaimSpec.faithful : ClaimSpec.codec.Faithful :=
  Record.opened_faithful (by decide) (fun _ => rfl) <|
    .cons (.optional (.list .text))
    <| .cons (.optional LocalTypedReference.faithful)
    <| .cons (.optional TypedReference.faithful)
    <| .cons (.optional VolumeResources.faithful)
    <| .cons (.optional ObjectSelector.faithful)
    <| .cons (.optional .text)
    <| .cons (.optional .text)
    <| .cons (.optional .text)
    <| .cons (.optional .text) .nil

theorem HttpSource.faithful : HttpSource.codec.Faithful :=
  Record.strict_faithful (by decide) (fun _ => rfl) <|
    .cons (.required .text) .nil

theorem ClaimSource.faithful : ClaimSource.codec.Faithful :=
  Record.strict_faithful (by decide) (fun _ => rfl) <|
    .cons (.required .text) <| .cons (.required .text) .nil

theorem VolumeSource.faithful : VolumeSource.codec.Faithful :=
  Record.strict_faithful (by decide) (fun _ => rfl) <|
    .cons (.optional HttpSource.faithful) <| .cons (.optional ClaimSource.faithful) .nil

theorem DataVolumeSpec.faithful : DataVolumeSpec.codec.Faithful :=
  Record.strict_faithful (by decide) (fun _ => rfl) <|
    .cons (.optional VolumeSource.faithful) <| .cons (.optional ClaimSpec.faithful) .nil

/-! ## Specifications -/

theorem NetworkSpec.faithful : NetworkSpec.codec.Faithful :=
  Record.strict_faithful (by decide) (fun _ => rfl) <|
    .cons (.required .text) <| .cons (.defaulted .bool) .nil

theorem MachineSpec.faithful : MachineSpec.codec.Faithful :=
  Record.strict_faithful (by decide) (fun _ => rfl) <|
    .cons (.defaulted .text)
    <| .cons (.defaulted .text)
    <| .cons (.defaulted .text)
    <| .cons (.optional Cpu.faithful)
    <| .cons (.optional Memory.faithful)
    <| .cons (.defaulted Resources.faithful)
    <| .cons (.optional .text)
    <| .cons (.optional DnsConfig.faithful)
    <| .cons (.defaulted .text)
    <| .cons (.defaulted .text)
    <| .cons (.many .text)
    <| .cons (.many NetworkSpec.faithful)
    <| .cons (.mapping .text) .nil

/-! ## Machines and data volumes -/

theorem OwnerReference.faithful : OwnerReference.codec.Faithful :=
  Record.opened_faithful (by decide) (fun _ => rfl) <|
    .cons (.lenient .text)
    <| .cons (.optional .bool)
    <| .cons (.optional .bool)
    <| .cons (.lenient .text)
    <| .cons (.lenient .text)
    <| .cons (.lenient .text) .nil

theorem ObjectMeta.neverNull : ObjectMeta.codec.NeverNull :=
  Record.opened_neverNull

/-- Metadata are restored if their times are, and what they say about managed fields. -/
theorem ObjectMeta.restores {m : ObjectMeta}
    (hcreated : ∀ t ∈ m.creationTimestamp, Time.codec.Restores t)
    (hdeleted : ∀ t ∈ m.deletionTimestamp, Time.codec.Restores t)
    (hmanaged : ∀ l ∈ m.managedFields, ∀ f ∈ l, ManagedFields.codec.Restores f) :
    ObjectMeta.codec.Restores m := by
  have htext {name : String} : (Field.optional name .text).Lossless := .optional .text
  have hnumber {name : String} : (Field.optional name .int64).Lossless := .optional .int64
  have hlabels {name : String} : (Field.optional name (.map .text)).Lossless :=
    .optional (.map .text)
  refine Record.restores_opened (by decide) rfl ?_
  exact ⟨hlabels _, Field.optional_restores nofun hcreated, hnumber _,
    Field.optional_restores nofun hdeleted, Field.Lossless.optional (.list .text) _, htext _,
    hnumber _, hlabels _,
    Field.optional_restores Codec.list_neverNull fun l hl => Codec.list_restores (hmanaged l hl),
    htext _, htext _, Field.Lossless.optional (.list OwnerReference.faithful) _, htext _, htext _,
    htext _, trivial⟩

theorem Instance.faithful : Instance.codec.Faithful :=
  Record.strict_faithful (by decide) (fun _ => rfl) <|
    .cons (.defaulted Domain.faithful)
    <| .cons (.optional .int64)
    <| .cons (.many Volume.faithful)
    <| .cons (.many Network.faithful)
    <| .cons (.optional Affinity.faithful)
    <| .cons (.optional .text)
    <| .cons (.optional DnsConfig.faithful) .nil

theorem InstanceTemplate.restores {t : InstanceTemplate}
    (h : ∀ m ∈ t.metadata, ObjectMeta.codec.Restores m) : InstanceTemplate.codec.Restores t :=
  Record.restores_strict (by decide) (by simp) rfl
    ⟨Field.optional_restores ObjectMeta.neverNull h,
      Field.defaulted_restores (Instance.faithful.lossless t.spec), trivial⟩

theorem DataVolumeTemplate.restores {t : DataVolumeTemplate}
    (h : ObjectMeta.codec.Restores t.metadata) : DataVolumeTemplate.codec.Restores t :=
  Record.restores_strict (by decide) (by simp) rfl
    ⟨Field.defaulted_restores h, Field.required_restores (DataVolumeSpec.faithful.lossless t.spec),
      trivial⟩

theorem VirtualMachineSpec.restores {s : VirtualMachineSpec}
    (htemplate : ∀ m ∈ s.template.metadata, ObjectMeta.codec.Restores m)
    (hvolumes : ∀ t ∈ s.dataVolumeTemplates, ObjectMeta.codec.Restores t.metadata) :
    VirtualMachineSpec.codec.Restores s :=
  Record.restores_strict (by decide) (by simp) rfl
    ⟨Field.Lossless.optional .bool s.running,
      Field.required_restores (InstanceTemplate.restores htemplate),
      Field.many_restores fun t ht => DataVolumeTemplate.restores (hvolumes t ht), trivial⟩

/-- The metadata in a machine: its own, and those of its templates. -/
def VirtualMachine.metas (vm : VirtualMachine) : List ObjectMeta :=
  vm.metadata :: (vm.spec.template.metadata.toList
    ++ vm.spec.dataVolumeTemplates.map DataVolumeTemplate.metadata)

theorem VirtualMachine.restores {vm : VirtualMachine}
    (h : ∀ m ∈ vm.metas, ObjectMeta.codec.Restores m) : VirtualMachine.codec.Restores vm := by
  have hspec : VirtualMachineSpec.codec.Restores vm.spec := by
    refine VirtualMachineSpec.restores (fun m hm => h m ?_) fun t ht => h t.metadata ?_
    · simp [metas, Option.mem_def.mp hm]
    · simp only [metas, List.mem_cons, List.mem_append]
      exact .inr (.inr (List.mem_map_of_mem ht))
  exact Record.restores_strict (by decide) (by decide) rfl
    ⟨Field.required_restores (h vm.metadata List.mem_cons_self), Field.required_restores hspec,
      trivial⟩

theorem DataVolume.restores {v : DataVolume} (h : ObjectMeta.codec.Restores v.metadata) :
    DataVolume.codec.Restores v :=
  Record.restores_strict (by decide) (by decide) rfl
    ⟨Field.required_restores h, Field.required_restores (DataVolumeSpec.faithful.lossless v.spec),
      trivial⟩

/-- The metadata in the machine of a plan say nothing about times and managed fields. -/
theorem Plan.metas_restores (p : Plan) :
    ∀ m ∈ p.virtualMachine.metas, ObjectMeta.codec.Restores m := by
  have hplain (m : ObjectMeta) (hcreated : m.creationTimestamp = none)
      (hdeleted : m.deletionTimestamp = none) (hmanaged : m.managedFields = none) :
      ObjectMeta.codec.Restores m :=
    ObjectMeta.restores (by simp [hcreated]) (by simp [hdeleted]) (by simp [hmanaged])
  intro m hm
  rcases List.mem_cons.mp hm with rfl | hm
  · exact hplain _ rfl rfl rfl
  · rcases List.mem_cons.mp hm with rfl | hm
    · exact hplain _ rfl rfl rfl
    · rw [List.mem_singleton.mp hm]
      exact hplain _ rfl rfl rfl

/-- **Objects survive documents.** Every specification that is written as a document is read back as
    it was, and so is every machine and every data volume whose metadata are. Whatever document is
    read, and however it spells what it leaves out, the document that is written of what was read
    is accepted and is written back as it is. -/
theorem objects_survive_documents :
    (∀ spec : MachineSpec, MachineSpec.codec.Restores spec)
      ∧ (∀ vm : VirtualMachine, (∀ m ∈ vm.metas, ObjectMeta.codec.Restores m) →
        VirtualMachine.codec.Restores vm)
      ∧ (∀ volume : DataVolume, ObjectMeta.codec.Restores volume.metadata →
        DataVolume.codec.Restores volume)
      ∧ (∀ j spec, MachineSpec.codec.read j = .ok spec →
        MachineSpec.codec.Canonical (MachineSpec.codec.write spec))
      ∧ (∀ j vm, VirtualMachine.codec.read j = .ok vm →
        (∀ m ∈ vm.metas, ObjectMeta.codec.Restores m) →
        VirtualMachine.codec.Canonical (VirtualMachine.codec.write vm))
      ∧ ∀ j volume, DataVolume.codec.read j = .ok volume →
        ObjectMeta.codec.Restores volume.metadata →
        DataVolume.codec.Canonical (DataVolume.codec.write volume) :=
  ⟨MachineSpec.faithful.lossless, fun _ => VirtualMachine.restores, fun _ => DataVolume.restores,
    fun _ spec _ => Codec.Restores.canonical (MachineSpec.faithful.lossless spec),
    fun _ _ _ hmetas => (VirtualMachine.restores hmetas).canonical,
    fun _ _ _ hmeta => (DataVolume.restores hmeta).canonical⟩

/-- A machine that is sent, with two networks and without affinity, is read back as it was. -/
theorem machine_of_two_networks_survives_documents :
    ∃ p : Plan, p.spec.networks.length = 2 ∧ p.virtualMachine.metas.length = 3
      ∧ VirtualMachine.codec.Restores p.virtualMachine
      ∧ VirtualMachine.codec.Canonical (VirtualMachine.codec.write p.virtualMachine) := by
  let p : Plan :=
    { Plan.bare "a" "default" 0 "" with spec := { networks := [⟨"front", true⟩, ⟨"back", false⟩] } }
  obtain ⟨_, hmachine, _, _, hdocument, _⟩ := objects_survive_documents
  have hrestores := hmachine p.virtualMachine p.metas_restores
  exact ⟨p, rfl, rfl, hrestores, hdocument _ _ hrestores p.metas_restores⟩

/-- Two spellings of one processor, and what is written of it. -/
example :
    let cpu : Cpu := ⟨some 2, none, none, none, none⟩
    Cpu.codec.read (.array [Json.ofInt 2]) = .ok cpu
      ∧ Cpu.codec.read (.object [("spare", .array []), ("cores", Json.ofInt 2), ("model", .null)])
        = .ok cpu
      ∧ Cpu.codec.write cpu = .object [("cores", Json.ofInt 2)] :=
  ⟨rfl, rfl, rfl⟩

end MachineDriver
