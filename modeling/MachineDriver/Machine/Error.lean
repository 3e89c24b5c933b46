import MachineDriver.Cluster.StoreError

set_option autoImplicit false

/-!
# Driver errors

Why an operation on a machine fails: because of what the caller gave, or of what the cluster said.
-/

namespace MachineDriver

/-- What is done to one object of a cluster. -/
inductive Action where
  | get
  | create
  | update
  | delete
  deriving DecidableEq, Repr, Inhabited

/-- The verb of an action. -/
def Action.verb : Action → String
  | .get => "get"
  | .create => "create"
  | .update => "update"
  | .delete => "delete"

/-- Why an operation on a machine fails. -/
inductive DriverError where
  /-- No client for the cluster can be made. -/
  | client (reason : String)
  /-- The version of the cluster cannot be found out. -/
  | serverVersion (reason : String)
  | machineNotFound (name : String)
  /-- An action on one object failed. -/
  | object (action : Action) (kind name : String) (source : StoreError)
  /-- The machines of a namespace cannot be listed. -/
  | list (ns : String) (source : StoreError)
  /-- The user data cannot take keys. -/
  | userData (reason : String)
  /-- The network settings cannot be written. -/
  | networkData (reason : String)
  | invalidSpec (reason : String)
  | invalidCredentials (reason : String)
  | invalidProviderId (id : String)
  deriving DecidableEq, Repr, Inhabited

namespace DriverError

/-- How an error is reported. -/
def message : DriverError → String
  | .client reason => "failed to create client: " ++ reason
  | .serverVersion reason => "failed to get server version: " ++ reason
  | .machineNotFound name => "machine " ++ name ++ " not found"
  | .object action kind name source =>
    "failed to " ++ action.verb ++ " " ++ kind ++ " " ++ name ++ ": " ++ source.message
  | .list ns source =>
    "failed to list VirtualMachines in namespace " ++ ns ++ ": " ++ source.message
  | .userData reason => "failed to add ssh keys to cloud-init: " ++ reason
  | .networkData reason => "failed to render network data: " ++ reason
  | .invalidSpec reason => "invalid provider spec: " ++ reason
  | .invalidCredentials reason => "invalid credentials: " ++ reason
  | .invalidProviderId id => "invalid provider id: " ++ id

/-- Whether an error says that the machine does not exist. -/
def isMachineNotFound : DriverError → Bool
  | .machineNotFound _ => true
  | _ => false

end DriverError

end MachineDriver
