import MachineDriver.Machine.CloudConfig
import MachineDriver.Machine.Plan
import MachineDriver.Machine.Program
import MachineDriver.Machine.ProviderId
import MachineDriver.Machine.Retry

set_option autoImplicit false

/-!
# The lifecycle of a machine

The five operations on machines as programs: create, delete, status, list and shutdown. Each first
asks for the namespace that its credentials give access to. `create` settles a plan before it writes
anything, and then creates the machine and its secret, in this order; a machine whose secret cannot
be created stays.
-/

namespace MachineDriver

/-- The outcome of an operation. -/
abbrev Outcome (α : Type) := Except DriverError α

/-- Reads a machine; the error tells a machine that does not exist from any other failure. -/
def getMachine (ns name : String) : Program (Outcome VirtualMachine) := do
  match ← Program.call (.getVirtualMachine ns name) with
  | .ok vm => return .ok vm
  | .error .notFound => return .error (.machineNotFound name)
  | .error e => return .error (.object .get VirtualMachine.resource.kind name e)

/-! ## Creation -/

namespace Plan

/-- Finds out where the first disk of a machine comes from: from the volume that is named like the
class of the machine, if there is one, and else from the address of the image. -/
def findBootSource (ns sourceUrl : String) (machineClass : Option String) :
    Program (Outcome VolumeSource) :=
  match machineClass with
  | none => return .ok (.ofUrl sourceUrl)
  | some "" => return .ok (.ofUrl sourceUrl)
  | some name => do
    match ← Program.call (.getDataVolume ns name) with
    | .ok volume => return .ok (.ofClaim volume.metadata.shownName ns)
    | .error .notFound => return .ok (.ofUrl sourceUrl)
    | .error e => return .error (.object .get DataVolume.resource.kind name e)

/-- The user data of a machine, with the keys of its specification. -/
def userDataFor (spec : MachineSpec) (credentials : Credentials) : Outcome String :=
  if spec.sshKeys.isEmpty then .ok credentials.userData
  else
    match CloudConfig.addKeys credentials.userData spec.sshKeys with
    | .ok s => .ok s
    | .error e => .error (.userData e.message)

/-- Settles all that is needed to create a machine, without writing anything. -/
def prepare (name : String) (spec : MachineSpec) (credentials : Credentials) :
    Program (Outcome Plan) := do
  match ← Program.call (.client credentials) with
  | .error e => return .error e
  | .ok ns =>
    -- The time is read once, for the name of the secret.
    let seconds ← Program.call .now
    match NetworkLayout.ofSpecs spec.networks with
    | .error e => return .error e
    | .ok networks =>
      match ← Program.call (.serverVersion credentials) with
      | .error e => return .error e
      | .ok version =>
        match userDataFor spec credentials with
        | .error e => return .error e
        | .ok userData =>
          match ← findBootSource ns spec.sourceUrl
              ((machineLabels name spec.tags).get? classLabel) with
          | .error e => return .error e
          | .ok source =>
            return .ok
              { name := name
                ns := ns
                spec := spec
                networks := networks
                affinity := Topology.affinity? spec.region spec.zone version
                bootSource := source
                secretName := userDataSecretName name seconds
                userData := userData }

/-- Creates the machine of a plan and then its secret. -/
def commit (p : Plan) : Program (Outcome String) := do
  match ← Program.call (.createVirtualMachine p.virtualMachine) with
  | .error e => return .error (.object .create VirtualMachine.resource.kind p.name e)
  | .ok created =>
    match ← Program.call (.createSecret (p.secret created)) with
    | .error e => return .error (.object .create Secret.resource.kind p.secretName e)
    | .ok _ => return .ok (ProviderId.encode p.name)

end Plan

/-- Creates a machine and gives its identifier. -/
def createMachine (name : String) (spec : MachineSpec) (credentials : Credentials) :
    Program (Outcome String) := do
  match ← Plan.prepare name spec credentials with
  | .error e => return .error e
  | .ok plan => plan.commit

/-! ## Deletion -/

/-- Deletes a machine and gives its identifier; a machine that does not exist has none. -/
def deleteMachine (name : String) (credentials : Credentials) : Program (Outcome String) := do
  match ← Program.call (.client credentials) with
  | .error e => return .error e
  | .ok ns =>
    match ← getMachine ns name with
    -- Deleting a machine that does not exist succeeds, so that a caller may repeat it.
    | .error (.machineNotFound _) => return .ok ""
    | .error e => return .error e
    | .ok vm =>
      let found := vm.metadata.shownName
      match ← Program.call (.deleteVirtualMachine ns found) with
      -- A machine that somebody else has deleted meanwhile is gone all the same.
      | .ok () => return .ok (ProviderId.encode found)
      | .error .notFound => return .ok (ProviderId.encode found)
      | .error e => return .error (.object .delete VirtualMachine.resource.kind found e)

/-! ## Status and listing -/

/-- The identifier of a machine that exists. -/
def machineStatus (name : String) (credentials : Credentials) : Program (Outcome String) := do
  match ← Program.call (.client credentials) with
  | .error e => return .error e
  | .ok ns =>
    match ← getMachine ns name with
    | .error e => return .error e
    | .ok vm => return .ok (ProviderId.encode vm.metadata.shownName)

/-- The names of machines by their identifiers. -/
def namesById (vms : List VirtualMachine) : TextMap String :=
  TextMap.ofList (vms.map fun vm =>
    (ProviderId.encode vm.metadata.shownName, vm.metadata.shownName))

/-- The machines that carry all tags of a specification. -/
def listMachines (spec : MachineSpec) (credentials : Credentials) :
    Program (Outcome (TextMap String)) := do
  match ← Program.call (.client credentials) with
  | .error e => return .error e
  | .ok ns =>
    match ← Program.call (.listVirtualMachines ns spec.tags) with
    | .ok vms => return .ok (namesById vms)
    | .error e => return .error (.list ns e)

/-! ## Shutdown -/

/-- Asks a machine to stop. The first attempt relies on the version that was read already, and each
later one reads the machine anew. -/
def stopAttempt (ns name : String) (version : Option String) (attempt : Nat) :
    Program (Except StoreError VirtualMachine) := do
  if attempt = 1 then Program.call (.setRunning ns name version false)
  else
    match ← Program.call (.getVirtualMachine ns name) with
    | .error e => return .error e
    | .ok vm => Program.call (.setRunning ns name vm.metadata.resourceVersion false)

theorem stopAttempt_of_ne_one (ns name : String) (version : Option String) {attempt : Nat}
    (h : attempt ≠ 1) : stopAttempt ns name version attempt = (do
      match ← Program.call (.getVirtualMachine ns name) with
      | .error e => return .error e
      | .ok vm => Program.call (.setRunning ns name vm.metadata.resourceVersion false)) :=
  if_neg h

/-- Stops a machine and gives its identifier. Conflicts with others that change the machine are
retried. -/
def shutdownMachine (policy : RetryPolicy) (name : String) (credentials : Credentials) :
    Program (Outcome String) := do
  match ← Program.call (.client credentials) with
  | .error e => return .error e
  | .ok ns =>
    match ← getMachine ns name with
    | .error e => return .error e
    | .ok vm =>
      let found := vm.metadata.shownName
      match ← policy.run .crash (fun d => Program.call (.sleep d))
          (stopAttempt ns found vm.metadata.resourceVersion) with
      | .ok _ => return .ok (ProviderId.encode found)
      | .error e => return .error (.object .update VirtualMachine.resource.kind found e)

end MachineDriver
