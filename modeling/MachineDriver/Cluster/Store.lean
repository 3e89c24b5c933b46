import MachineDriver.Api.Secret
import MachineDriver.Api.VirtualMachine
import MachineDriver.Cluster.StoreError

set_option autoImplicit false

/-!
# A cluster

The objects of a cluster and what becomes of them: every write gives a machine another version, a
machine that is created gets an identity, and with a machine go the secrets that it owns. The
versions and identities are chosen by whoever answers for the cluster.
-/

namespace MachineDriver

/-! ## Objects by namespace and name -/

/-- Objects kept by namespace and name. -/
abbrev Namespaced (α : Type) := TextMap (TextMap α)

namespace Namespaced

variable {α : Type}

/-- The objects of a namespace. -/
def within (m : Namespaced α) (ns : String) : TextMap α :=
  (m.get? ns).getD TextMap.empty

/-- The object of a namespace and a name. -/
def find? (m : Namespaced α) (ns name : String) : Option α :=
  (m.within ns).get? name

/-- Objects with one more, which replaces one of the same namespace and name. -/
def put (m : Namespaced α) (ns name : String) (v : α) : Namespaced α :=
  m.insert ns ((m.within ns).insert name v)

/-- Objects without the one of a namespace and a name. -/
def drop (m : Namespaced α) (ns name : String) : Namespaced α :=
  m.insert ns ((m.within ns).erase name)

@[simp] theorem within_insert (m : Namespaced α) (ns : String) (objects : TextMap α)
    (ns' : String) :
    within (m.insert ns objects) ns' = if ns' = ns then objects else m.within ns' := by
  unfold within
  rw [TextMap.get?_insert]
  split <;> rfl

theorem find?_put (m : Namespaced α) (ns name : String) (v : α) (ns' name' : String) :
    (m.put ns name v).find? ns' name'
      = if ns' = ns ∧ name' = name then some v else m.find? ns' name' := by
  unfold find? put
  rw [within_insert]
  by_cases hns : ns' = ns
  · subst hns
    simp
  · simp [hns]

theorem find?_drop (m : Namespaced α) (ns name ns' name' : String) :
    (m.drop ns name).find? ns' name'
      = if ns' = ns ∧ name' = name then none else m.find? ns' name' := by
  unfold find? drop
  rw [within_insert]
  by_cases hns : ns' = ns
  · subst hns
    simp
  · simp [hns]

end Namespaced

/-- The namespace and the name under which an object is kept. -/
def ObjectMeta.key (m : ObjectMeta) : String × String :=
  (m.ns?.getD "", m.shownName)

/-- The objects of a cluster. Machines and volumes are kept by namespace and name, secrets in the
order of their creation. -/
structure Cluster where
  machines : Namespaced VirtualMachine := TextMap.empty
  volumes : Namespaced DataVolume := TextMap.empty
  secrets : List Secret := []
  /-- Every machine is kept under a namespace and a name of its own. -/
  keyed : ∀ ns name vm, machines.find? ns name = some vm → vm.metadata.key = (ns, name) := by
    intro ns name vm h
    cases h
  deriving Repr

namespace Cluster

/-- A cluster without objects. -/
def empty : Cluster := {}

instance : Inhabited Cluster := ⟨empty⟩

/-! ## Look-up -/

/-- The machine of a namespace and a name. -/
def machine? (c : Cluster) (ns name : String) : Option VirtualMachine :=
  c.machines.find? ns name

/-- The volume of a namespace and a name. -/
def volume? (c : Cluster) (ns name : String) : Option DataVolume :=
  c.volumes.find? ns name

/-- A cluster with a machine, which replaces one of the same namespace and name. -/
def putMachine (c : Cluster) (vm : VirtualMachine) : Cluster :=
  { c with
    machines := c.machines.put vm.metadata.key.1 vm.metadata.key.2 vm
    keyed := by
      intro ns name vm' h
      rw [Namespaced.find?_put] at h
      split at h
      · rename_i hkey
        obtain ⟨rfl, rfl⟩ := hkey
        cases h
        rfl
      · exact c.keyed ns name vm' h }

/-- A cluster without the machine of a namespace and a name. -/
def dropMachine (c : Cluster) (ns name : String) : Cluster :=
  { c with
    machines := c.machines.drop ns name
    keyed := by
      intro ns' name' vm h
      rw [Namespaced.find?_drop] at h
      split at h
      · cases h
      · exact c.keyed ns' name' vm h }

/-- A cluster with a volume more. -/
def putVolume (c : Cluster) (volume : DataVolume) : Cluster :=
  { c with volumes := c.volumes.put volume.metadata.key.1 volume.metadata.key.2 volume }

/-- A cluster of machines and volumes. -/
def ofObjects (vms : List VirtualMachine) (volumes : List DataVolume) : Cluster :=
  volumes.foldl putVolume (vms.foldl putMachine {})

/-! ## Versions -/

/-- A machine of another version. -/
def withVersion (vm : VirtualMachine) (version : String) : VirtualMachine :=
  { vm with metadata := { vm.metadata with resourceVersion := some version } }

/-- Someone else writes a machine, if it exists. -/
def touch (c : Cluster) (version ns name : String) : Cluster :=
  match c.machine? ns name with
  | some vm => c.putMachine (withVersion vm version)
  | none => c

/-! ## Calls -/

/-- Reads a machine. -/
def getMachine (c : Cluster) (ns name : String) : Except StoreError VirtualMachine :=
  match c.machine? ns name with
  | some vm => .ok vm
  | none => .error .notFound

/-- Reads a volume. -/
def getVolume (c : Cluster) (ns name : String) : Except StoreError DataVolume :=
  match c.volume? ns name with
  | some volume => .ok volume
  | none => .error .notFound

/-- The machines of a namespace that carry labels, by name. -/
def listMachines (c : Cluster) (ns : String) (labels : TextMap String) : List VirtualMachine :=
  ((c.machines.within ns).entries.map Prod.snd).filter fun vm =>
    labels.isSubmapOf vm.metadata.labelMap

/-- Creates a machine with an identity and a version, unless one of its name exists. -/
def createMachine (c : Cluster) (uid version : String) (vm : VirtualMachine) :
    Except StoreError VirtualMachine × Cluster :=
  let (ns, name) := vm.metadata.key
  match c.machine? ns name with
  | some _ =>
    (.error (.conflict ("virtualmachines.kubevirt.io \"" ++ name ++ "\" already exists")), c)
  | none =>
    let vm := withVersion { vm with metadata := { vm.metadata with uid := some uid } } version
    (.ok vm, c.putMachine vm)

/-- Sets whether a machine is to run and gives it another version, unless it no longer has the
version that is expected. -/
def setRunning (c : Cluster) (version ns name : String) (expected : Option String)
    (running : Bool) : Except StoreError VirtualMachine × Cluster :=
  match c.machine? ns name with
  | none => (.error .notFound, c)
  | some vm =>
    if expected.isSome ∧ expected ≠ vm.metadata.resourceVersion then
      (.error (.conflict "the object has been modified"), c)
    else
      let vm := withVersion { vm with spec := { vm.spec with running := some running } } version
      (.ok vm, c.putMachine vm)

/-- Whether a secret is owned by the object of an identity. -/
def isOwnedBy (uid : String) (s : Secret) : Bool :=
  (s.metadata.ownerReferences.getD []).any fun r => r.uid = uid

/-- Deletes a machine and the secrets that it owns. -/
def deleteMachine (c : Cluster) (ns name : String) : Except StoreError Unit × Cluster :=
  match c.machine? ns name with
  | none => (.error .notFound, c)
  | some vm =>
    let c := c.dropMachine ns name
    match vm.metadata.uid with
    | none => (.ok (), c)
    | some uid => (.ok (), { c with secrets := c.secrets.filter fun s => !isOwnedBy uid s })

/-- Creates a secret. -/
def createSecret (c : Cluster) (s : Secret) : Except StoreError Secret × Cluster :=
  (.ok s, { c with secrets := c.secrets ++ [s] })

/-! ## Laws -/

/-- A machine that is found bears the namespace and the name that it was looked for under. -/
theorem key_of_machine? {c : Cluster} {ns name : String} {vm : VirtualMachine}
    (h : c.machine? ns name = some vm) : vm.metadata.key = (ns, name) :=
  c.keyed ns name vm h

theorem shownName_of_machine? {c : Cluster} {ns name : String} {vm : VirtualMachine}
    (h : c.machine? ns name = some vm) : vm.metadata.shownName = name :=
  congrArg Prod.snd (key_of_machine? h)

theorem machine?_putMachine (c : Cluster) (vm : VirtualMachine) (ns name : String) :
    (c.putMachine vm).machine? ns name
      = if (ns, name) = vm.metadata.key then some vm else c.machine? ns name := by
  unfold machine? putMachine
  rw [Namespaced.find?_put]
  simp only [Prod.ext_iff]

theorem machine?_dropMachine (c : Cluster) (ns name ns' name' : String) :
    (c.dropMachine ns name).machine? ns' name'
      = if (ns', name') = (ns, name) then none else c.machine? ns' name' := by
  unfold machine? dropMachine
  rw [Namespaced.find?_drop]
  simp only [Prod.ext_iff]

@[simp] theorem secrets_putMachine (c : Cluster) (vm : VirtualMachine) :
    (c.putMachine vm).secrets = c.secrets := rfl

end Cluster

end MachineDriver
