import MachineDriver.Machine.Retry
import MachineDriver.Server.SocketAddress
import MachineDriver.Text.Utf8
import MachineDriver.TextMap

set_option autoImplicit false

/-!
# Configuration

What a server is told by the variables of its environment. A variable whose bytes are no text counts
as one that is not set.
-/

namespace MachineDriver

/-- The variables of a process: byte strings under their names. -/
abbrev Environment := TextMap (List UInt8)

/-- The text of a variable. -/
def Environment.text? (env : Environment) (name : String) : Option String :=
  match env.get? name with
  | none => none
  | some bytes =>
    match Text.Utf8.decode bytes with
    | .ok s => some s
    | .error _ => none

/-- What a server is told. -/
structure Config where
  listenAddress : SocketAddress
  apiToken : Option String
  shutdownAttempts : Option UInt32
  deriving DecidableEq, Repr

namespace Config

/-- Why a server cannot be configured. -/
inductive Error where
  | invalidAddress (value : String)
  | invalidAttempts (value : String)
  deriving DecidableEq, Repr, Inhabited

/-- How an error is reported. -/
def Error.message : Error → String
  | .invalidAddress value =>
    "LISTEN_ADDR must be a valid socket address, got " ++ Text.quoted value
  | .invalidAttempts value =>
    "SHUTDOWN_RETRY_ATTEMPTS must be a positive integer, got " ++ Text.quoted value

/-- The address of a server that is told none. -/
def defaultAddress : SocketAddress :=
  .v4 ⟨0, 0, 0, 0⟩ 8080

/-- The address that a server listens on. -/
def readAddress (env : Environment) : Except Error SocketAddress :=
  match env.text? "LISTEN_ADDR" with
  | none => .ok defaultAddress
  | some s =>
    match SocketAddress.ofText? s with
    | some address => .ok address
    | none => .error (.invalidAddress s)

/-- The token that requests must carry, if any; an empty one is none. -/
def readToken (env : Environment) : Option String :=
  match env.text? "DRIVER_API_TOKEN" with
  | some "" => none
  | token => token

/-- How often a shutdown is tried, if that is told. -/
def readAttempts (env : Environment) : Except Error (Option UInt32) :=
  match env.text? "SHUTDOWN_RETRY_ATTEMPTS" with
  | none => .ok none
  | some s =>
    match Text.readUnsigned? 4294967296 s with
    | some 0 => .error (.invalidAttempts s)
    | some n => .ok (some (UInt32.ofNat n))
    | none => .error (.invalidAttempts s)

/-- The configuration of a server in an environment. -/
def ofEnvironment (env : Environment) : Except Error Config :=
  match readAddress env with
  | .error e => .error e
  | .ok address =>
    match readAttempts env with
    | .error e => .error e
    | .ok attempts => .ok ⟨address, readToken env, attempts⟩

/-- How a server retries shutdowns. The shares by which its pauses are lengthened are left out. -/
def retryPolicy (c : Config) : RetryPolicy :=
  match c.shutdownAttempts with
  | some n => .ofAttempts n
  | none => {}

end Config

end MachineDriver
