import MachineDriver.Api.Secret
import MachineDriver.Machine.NetworkLayout
import MachineDriver.Machine.Topology

set_option autoImplicit false

/-!
# Plans

All that is settled about a new machine before anything is written to its cluster, and the objects
that are then created: the machine, and a secret of user data that it owns.
-/

namespace MachineDriver

/-- All that is settled about a new machine. -/
structure Plan where
  name : String
  ns : String
  spec : MachineSpec
  networks : NetworkLayout
  affinity : Option Affinity
  bootSource : VolumeSource
  secretName : String
  userData : String
  deriving DecidableEq, Repr, Inhabited

/-- The label that names the machine of an object. -/
def machineLabel : String := "kubevirt.io/vm"

/-- The label that names the class of a machine. -/
def classLabel : String := "mcm.gardener.cloud/machineclass"

/-- The labels of a machine: the tags of its specification, and its name above them. -/
def machineLabels (name : String) (tags : TextMap String) : TextMap String :=
  tags.insert machineLabel name

/-- The name of the secret of user data of a machine that is made at a time, told in seconds. -/
def userDataSecretName (name : String) (seconds : Nat) : String :=
  "userdata-" ++ name ++ "-" ++ String.ofList (Text.decimal seconds)

namespace Plan

/-- The name of the disk that a machine starts from. -/
def bootDisk : String := "datavolumedisk"

/-- The name of the disk of first-start settings. -/
def settingsDisk : String := "cloudinitdisk"

/-- The entry of user data in its secret. -/
def userDataEntry : String := "userdata"

/-- A disk on the bus that all disks are attached to. -/
def disk (name : String) : Disk :=
  ⟨name, some ⟨"virtio"⟩⟩

/-- The template of the volume that the machine starts from. -/
def bootVolume (p : Plan) : DataVolumeTemplate :=
  { metadata := { name := some p.name, ns? := some p.ns }
    spec :=
      { source := some p.bootSource
        pvc := some
          { accessModes := some ["ReadWriteOnce"]
            resources := some
              { limits := none
                requests := some (TextMap.empty.insert "storage" p.spec.pvcSize) }
            storageClassName := some p.spec.storageClassName } } }

/-- The volumes behind the two disks. -/
def volumes (p : Plan) : List Volume :=
  [{ name := bootDisk, dataVolume := some ⟨p.name⟩, cloudInitNoCloud := none },
    { name := settingsDisk
      dataVolume := none
      cloudInitNoCloud := some
        { userDataSecretRef := some ⟨p.secretName⟩, networkData := p.networks.networkData } }]

/-- The machine while it runs. -/
def machineInstance (p : Plan) : Instance :=
  { domain :=
      { cpu := p.spec.cpu
        memory := p.spec.memory
        resources := p.spec.resources
        devices :=
          { disks := [disk bootDisk, disk settingsDisk], interfaces := p.networks.interfaces } }
    terminationGracePeriodSeconds := some 30
    volumes := p.volumes
    networks := p.networks.networks
    affinity := p.affinity
    dnsPolicy := p.spec.dnsPolicy
    dnsConfig := p.spec.dnsConfig }

/-- The machine as it is created. -/
def virtualMachine (p : Plan) : VirtualMachine :=
  { metadata :=
      { name := some p.name
        ns? := some p.ns
        labels := some (machineLabels p.name p.spec.tags) }
    spec :=
      { running := some true
        template :=
          { metadata := some { labels := some (TextMap.empty.insert machineLabel p.name) }
            spec := p.machineInstance }
        dataVolumeTemplates := [p.bootVolume] } }

/-- The secret of user data, owned by the machine that was created. -/
def secret (p : Plan) (created : VirtualMachine) : Secret :=
  { data := some (TextMap.empty.insert userDataEntry (Text.Utf8.encode p.userData))
    metadata :=
      { name := some p.secretName
        -- An owner must be in the namespace of what it owns.
        ns? := created.metadata.ns?.orElse fun _ => some p.ns
        ownerReferences :=
          (VirtualMachine.resource.controllerReference? created.metadata).map fun r => [r] } }

end Plan

end MachineDriver
