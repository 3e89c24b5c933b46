import MachineDriver.Api.Secret
import MachineDriver.Machine.Error
import MachineDriver.Text.Utf8

set_option autoImplicit false

/-!
# Credentials

What a caller hands over to reach a cluster and to start a machine.
-/

namespace MachineDriver

/-- Byte strings under their names. -/
structure Credentials where
  data : TextMap (List UInt8) := TextMap.empty
  deriving DecidableEq, Repr, Inhabited

namespace Credentials

/-- The entry that tells how to reach the cluster. -/
def kubeconfigEntry : String := "kubeconfig"

/-- The entry that a machine reads at its first start. -/
def userDataEntry : String := "userData"

/-- The data of a secret. -/
def ofSecret (s : Secret) : Credentials :=
  ⟨s.data.getD TextMap.empty⟩

/-- The bytes of an entry. -/
def get? (c : Credentials) (name : String) : Option (List UInt8) :=
  c.data.get? name

/-- The bytes that tell how to reach the cluster. -/
def kubeconfig? (c : Credentials) : Option (List UInt8) :=
  c.get? kubeconfigEntry

/-- The text that a machine reads at its first start; bytes that are no text are replaced. -/
def userData (c : Credentials) : String :=
  match c.get? userDataEntry with
  | some bytes => Text.Utf8.decodeLenient bytes
  | none => ""

/-- The report that an entry is missing. -/
def missing (name : String) : String :=
  "secret is missing " ++ Text.quoted name

/-- Whether an entry is present and not empty. -/
def has (c : Credentials) (name : String) : Bool :=
  match c.get? name with
  | some bytes => !bytes.isEmpty
  | none => false

/-- Accepts credentials in which both entries are present and not empty. -/
def validate (c : Credentials) : Except DriverError Unit :=
  if !c.has kubeconfigEntry then .error (.invalidCredentials (missing kubeconfigEntry))
  else if !c.has userDataEntry then .error (.invalidCredentials (missing userDataEntry))
  else .ok ()

end Credentials

end MachineDriver
