import MachineDriver.Api.Affinity
import MachineDriver.Api.DataVolume
import MachineDriver.Api.Dns

set_option autoImplicit false

/-!
# Virtual machines

A virtual machine is a template of its running instance, the volumes that live and die with it, and
the state that is asked for.
-/

namespace MachineDriver

open Json (Codec Field Record)

/-! ## The domain -/

/-- The processor of a machine. -/
structure Cpu where
  cores : Option UInt32
  sockets : Option UInt32
  threads : Option UInt32
  model : Option String
  dedicatedCpuPlacement : Option Bool
  deriving DecidableEq, Repr, Inhabited

/-- Processors as records. -/
def Cpu.codec : Codec Cpu :=
  Record.strict
    { fields :=
        .cons (.optional "cores" .uint32)
        <| .cons (.optional "sockets" .uint32)
        <| .cons (.optional "threads" .uint32)
        <| .cons (.optional "model" .text)
        <| .cons (.optional "dedicatedCpuPlacement" .bool) .nil
      ofFields := fun (c, s, t, m, d, ()) => ⟨c, s, t, m, d⟩
      toFields := fun c => (c.cores, c.sockets, c.threads, c.model, c.dedicatedCpuPlacement, ()) }
    []

/-- The page size of memory in huge pages. -/
structure Hugepages where
  pageSize : String
  deriving DecidableEq, Repr, Inhabited

/-- Huge pages as records. -/
def Hugepages.codec : Codec Hugepages :=
  Record.strict
    { fields := .cons (.required "pageSize" .text) .nil
      ofFields := fun (p, ()) => ⟨p⟩
      toFields := fun h => (h.pageSize, ()) } []

/-- The memory of a machine. -/
structure Memory where
  guest : Option String
  hugepages : Option Hugepages
  deriving DecidableEq, Repr, Inhabited

/-- Memories as records. -/
def Memory.codec : Codec Memory :=
  Record.strict
    { fields :=
        .cons (.optional "guest" .text)
        <| .cons (.optional "hugepages" Hugepages.codec) .nil
      ofFields := fun (g, h, ()) => ⟨g, h⟩
      toFields := fun m => (m.guest, m.hugepages, ()) } []

/-- The compute resources of a machine, as quantities under their names. -/
structure Resources where
  requests : TextMap String := TextMap.empty
  limits : TextMap String := TextMap.empty
  overcommitGuestOverhead : Bool := false
  deriving DecidableEq, Repr, Inhabited

/-- Compute resources as records. -/
def Resources.codec : Codec Resources :=
  Record.strict
    { fields :=
        .cons (.mapping "requests" .text)
        <| .cons (.mapping "limits" .text)
        <| .cons (.flag "overcommitGuestOverhead") .nil
      ofFields := fun (r, l, o, ()) => ⟨r, l, o⟩
      toFields := fun r => (r.requests, r.limits, r.overcommitGuestOverhead, ()) } []

/-- The bus that a disk is attached to. -/
structure DiskTarget where
  bus : String
  deriving DecidableEq, Repr, Inhabited

/-- Buses as records. -/
def DiskTarget.codec : Codec DiskTarget :=
  Record.strict
    { fields := .cons (.required "bus" .text) .nil
      ofFields := fun (b, ()) => ⟨b⟩
      toFields := fun t => (t.bus, ()) } []

/-- A disk, which shows the volume of its name. -/
structure Disk where
  name : String
  disk : Option DiskTarget
  deriving DecidableEq, Repr, Inhabited

/-- Disks as records. -/
def Disk.codec : Codec Disk :=
  Record.strict
    { fields :=
        .cons (.required "name" .text)
        <| .cons (.optional "disk" DiskTarget.codec) .nil
      ofFields := fun (n, d, ()) => ⟨n, d⟩
      toFields := fun d => (d.name, d.disk, ()) } []

/-- A binding without settings. -/
structure Binding where
  deriving DecidableEq, Repr, Inhabited

/-- Bindings as records without fields. -/
def Binding.codec : Codec Binding :=
  Record.strict { fields := .nil, ofFields := fun () => ⟨⟩, toFields := fun _ => () } []

/-- A network card, bound to the network of its name. -/
structure Interface where
  name : String
  bridge : Option Binding
  masquerade : Option Binding
  deriving DecidableEq, Repr, Inhabited

namespace Interface

/-- Network cards as records. -/
def codec : Codec Interface :=
  Record.strict
    { fields :=
        .cons (.required "name" .text)
        <| .cons (.optional "bridge" Binding.codec)
        <| .cons (.optional "masquerade" Binding.codec) .nil
      ofFields := fun (n, b, m, ()) => ⟨n, b, m⟩
      toFields := fun i => (i.name, i.bridge, i.masquerade, ()) } []

/-- A card that is bridged to its network. -/
def ofBridge (name : String) : Interface :=
  ⟨name, some ⟨⟩, none⟩

/-- A card that is behind the address of the machine's launcher. -/
def ofMasquerade (name : String) : Interface :=
  ⟨name, none, some ⟨⟩⟩

end Interface

/-- The disks and network cards of a machine. -/
structure Devices where
  disks : List Disk := []
  interfaces : List Interface := []
  deriving DecidableEq, Repr, Inhabited

/-- Devices as records. -/
def Devices.codec : Codec Devices :=
  Record.strict
    { fields :=
        .cons (.many "disks" Disk.codec)
        <| .cons (.many "interfaces" Interface.codec) .nil
      ofFields := fun (d, i, ()) => ⟨d, i⟩
      toFields := fun d => (d.disks, d.interfaces, ()) } []

/-- The hardware of a machine. -/
structure Domain where
  cpu : Option Cpu := none
  memory : Option Memory := none
  resources : Resources := {}
  devices : Devices := {}
  deriving DecidableEq, Repr, Inhabited

/-- Domains as records. -/
def Domain.codec : Codec Domain :=
  Record.strict
    { fields :=
        .cons (.optional "cpu" Cpu.codec)
        <| .cons (.optional "memory" Memory.codec)
        <| .cons (.defaulted "resources" Resources.codec {})
        <| .cons (.defaulted "devices" Devices.codec {}) .nil
      ofFields := fun (c, m, r, d, ()) => ⟨c, m, r, d⟩
      toFields := fun d => (d.cpu, d.memory, d.resources, d.devices, ()) } []

/-! ## Networks and volumes -/

/-- The network that every workload of the cluster shares. -/
structure PodNetwork where
  vmNetworkCidr : Option String := none
  deriving DecidableEq, Repr, Inhabited

/-- Shared networks as records. -/
def PodNetwork.codec : Codec PodNetwork :=
  Record.strict
    { fields := .cons (.optional "vmNetworkCidr" .text) .nil
      ofFields := fun (c, ()) => ⟨c⟩
      toFields := fun p => (p.vmNetworkCidr, ()) } []

/-- A network attached by name, which may be the default route. -/
structure MultusNetwork where
  networkName : String
  default : Bool
  deriving DecidableEq, Repr, Inhabited

/-- Attached networks as records. -/
def MultusNetwork.codec : Codec MultusNetwork :=
  Record.strict
    { fields :=
        .cons (.required "networkName" .text)
        <| .cons (.flag "default") .nil
      ofFields := fun (n, d, ()) => ⟨n, d⟩
      toFields := fun m => (m.networkName, m.default, ()) } []

/-- What the network card of the same name is attached to. -/
structure Network where
  name : String
  pod : Option PodNetwork
  multus : Option MultusNetwork
  deriving DecidableEq, Repr, Inhabited

namespace Network

/-- Networks as records. -/
def codec : Codec Network :=
  Record.strict
    { fields :=
        .cons (.required "name" .text)
        <| .cons (.optional "pod" PodNetwork.codec)
        <| .cons (.optional "multus" MultusNetwork.codec) .nil
      ofFields := fun (n, p, m, ()) => ⟨n, p, m⟩
      toFields := fun n => (n.name, n.pod, n.multus, ()) } []

/-- The network that every workload of the cluster shares. -/
def ofPod (name : String) : Network :=
  ⟨name, some {}, none⟩

/-- A network attached by name. -/
def ofMultus (name networkName : String) (default : Bool) : Network :=
  ⟨name, none, some ⟨networkName, default⟩⟩

end Network

/-- A reference to an object of the same namespace by its name. -/
structure LocalReference where
  name : String
  deriving DecidableEq, Repr, Inhabited

/-- References as open records. -/
def LocalReference.codec : Codec LocalReference :=
  Record.opened
    { fields := .cons (.lenient "name" .text "") .nil
      ofFields := fun (n, ()) => ⟨n⟩
      toFields := fun r => (r.name, ()) }

/-- The data volume of a name. -/
structure DataVolumeRef where
  name : String
  deriving DecidableEq, Repr, Inhabited

/-- Data volumes by name as records. -/
def DataVolumeRef.codec : Codec DataVolumeRef :=
  Record.strict
    { fields := .cons (.required "name" .text) .nil
      ofFields := fun (n, ()) => ⟨n⟩
      toFields := fun r => (r.name, ()) } []

/-- The settings that a machine reads at its first start. -/
structure CloudInit where
  userDataSecretRef : Option LocalReference
  networkData : Option String
  deriving DecidableEq, Repr, Inhabited

/-- First-start settings as records. -/
def CloudInit.codec : Codec CloudInit :=
  Record.strict
    { fields :=
        .cons (.optional "userDataSecretRef" LocalReference.codec)
        <| .cons (.optional "networkData" .text) .nil
      ofFields := fun (u, n, ()) => ⟨u, n⟩
      toFields := fun c => (c.userDataSecretRef, c.networkData, ()) } []

/-- A volume and where its contents come from. -/
structure Volume where
  name : String
  dataVolume : Option DataVolumeRef
  cloudInitNoCloud : Option CloudInit
  deriving DecidableEq, Repr, Inhabited

/-- Volumes as records. -/
def Volume.codec : Codec Volume :=
  Record.strict
    { fields :=
        .cons (.required "name" .text)
        <| .cons (.optional "dataVolume" DataVolumeRef.codec)
        <| .cons (.optional "cloudInitNoCloud" CloudInit.codec) .nil
      ofFields := fun (n, d, c, ()) => ⟨n, d, c⟩
      toFields := fun v => (v.name, v.dataVolume, v.cloudInitNoCloud, ()) } []

/-! ## The machine -/

/-- A machine while it runs. -/
structure Instance where
  domain : Domain := {}
  terminationGracePeriodSeconds : Option Int64 := none
  volumes : List Volume := []
  networks : List Network := []
  affinity : Option Affinity := none
  dnsPolicy : Option String := none
  dnsConfig : Option DnsConfig := none
  deriving DecidableEq, Repr, Inhabited

/-- Running machines as records. -/
def Instance.codec : Codec Instance :=
  Record.strict
    { fields :=
        .cons (.defaulted "domain" Domain.codec {})
        <| .cons (.optional "terminationGracePeriodSeconds" .int64)
        <| .cons (.many "volumes" Volume.codec)
        <| .cons (.many "networks" Network.codec)
        <| .cons (.optional "affinity" Affinity.codec)
        <| .cons (.optional "dnsPolicy" .text)
        <| .cons (.optional "dnsConfig" DnsConfig.codec) .nil
      ofFields := fun (d, t, v, n, a, p, c, ()) => ⟨d, t, v, n, a, p, c⟩
      toFields := fun i =>
        (i.domain, i.terminationGracePeriodSeconds, i.volumes, i.networks, i.affinity,
          i.dnsPolicy, i.dnsConfig, ()) }
    []

/-- The template of a running machine. -/
structure InstanceTemplate where
  metadata : Option ObjectMeta := none
  spec : Instance := {}
  deriving Repr, Inhabited

/-- Templates as records. -/
def InstanceTemplate.codec : Codec InstanceTemplate :=
  Record.strict
    { fields :=
        .cons (.optional "metadata" ObjectMeta.codec)
        <| .cons (.defaulted "spec" Instance.codec {}) .nil
      ofFields := fun (m, s, ()) => ⟨m, s⟩
      toFields := fun t => (t.metadata, t.spec, ()) } []

/-- The template of a data volume. -/
structure DataVolumeTemplate where
  metadata : ObjectMeta := {}
  spec : DataVolumeSpec
  deriving Repr, Inhabited

/-- Templates of data volumes as records. -/
def DataVolumeTemplate.codec : Codec DataVolumeTemplate :=
  Record.strict
    { fields :=
        .cons (.defaulted "metadata" ObjectMeta.codec {})
        <| .cons (.required "spec" DataVolumeSpec.codec) .nil
      ofFields := fun (m, s, ()) => ⟨m, s⟩
      toFields := fun t => (t.metadata, t.spec, ()) } []

/-- What is asked of a virtual machine. -/
structure VirtualMachineSpec where
  running : Option Bool
  template : InstanceTemplate
  dataVolumeTemplates : List DataVolumeTemplate
  deriving Repr, Inhabited

/-- Machine settings as records. -/
def VirtualMachineSpec.codec : Codec VirtualMachineSpec :=
  Record.strict
    { fields :=
        .cons (.optional "running" .bool)
        <| .cons (.required "template" InstanceTemplate.codec)
        <| .cons (.many "dataVolumeTemplates" DataVolumeTemplate.codec) .nil
      ofFields := fun (r, t, d, ()) => ⟨r, t, d⟩
      toFields := fun v => (v.running, v.template, v.dataVolumeTemplates, ()) } []

/-- A virtual machine. -/
structure VirtualMachine where
  metadata : ObjectMeta
  spec : VirtualMachineSpec
  deriving Repr, Inhabited

namespace VirtualMachine

/-- What virtual machines are among the resources of a cluster. -/
def resource : Resource where
  group := "kubevirt.io"
  version := "v1"
  kind := "VirtualMachine"
  plural := "virtualmachines"

/-- Virtual machines as records, written with their version and kind. -/
def codec : Codec VirtualMachine :=
  Record.strict
    { fields :=
        .cons (.required "metadata" ObjectMeta.codec)
        <| .cons (.required "spec" VirtualMachineSpec.codec) .nil
      ofFields := fun (m, s, ()) => ⟨m, s⟩
      toFields := fun v => (v.metadata, v.spec, ()) }
    [("apiVersion", resource.apiVersion), ("kind", resource.kind)]

end VirtualMachine

end MachineDriver
