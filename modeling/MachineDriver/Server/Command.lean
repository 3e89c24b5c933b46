import MachineDriver.Json.Text
import MachineDriver.Machine.Lifecycle
import MachineDriver.Server.Error
import MachineDriver.Server.MediaType
import MachineDriver.Server.Message
import MachineDriver.Server.Route
import MachineDriver.Text.Percent

set_option autoImplicit false

/-!
# Commands

What a request asks of the driver once it has been read and checked. Reading a request touches
nothing outside: it gives either a command or the response that refuses it. The name in the path
comes first, then the content, and then what the content says.
-/

namespace MachineDriver

/-- One operation on machines with all that it needs. -/
inductive Command where
  | create (name : String) (spec : MachineSpec) (credentials : Credentials)
  | list (spec : MachineSpec) (credentials : Credentials)
  | delete (name : String) (credentials : Credentials)
  | status (name : String) (credentials : Credentials)
  | shutdown (name : String) (credentials : Credentials)
  deriving DecidableEq, Repr, Inhabited

namespace Command

/-! ## Reading -/

/-- The most bytes that a content may have. -/
def maxLength : Nat := 2097152

/-- A refusal in plain words. -/
def refusal (status : Status) (reason : String) : Response :=
  { status := status, content := .text reason }

/-- Whether a request tells that it carries JSON. -/
def carriesJson (r : Request) : Bool :=
  match r.headerText? "content-type" with
  | some header => MediaType.isJson header
  | none => false

/-- The refusal of a content that is not read. -/
def unreadable : Json.Error → Response
  | .malformed => refusal .badRequest "Failed to parse the request body as JSON"
  | .mismatch =>
    refusal .unprocessableContent "Failed to deserialize the JSON body into the target type"

/-- The message that a request carries. -/
def readMessage {α : Type} (c : Json.Codec α) (r : Request) : Except Response α :=
  if !carriesJson r then
    .error (refusal .unsupportedMediaType
      "Expected request with \x60Content-Type: application/json\x60")
  else if maxLength < r.body.length then
    .error (refusal .contentTooLarge "Failed to buffer the request body: length limit exceeded")
  else
    match Json.readText c.read r.body with
    | .ok m => .ok m
    | .error e => .error (unreadable e)

/-- The name that a segment of a path stands for. -/
def readSegment (segment : List Char) : Except Response String :=
  match Text.Percent.decode (String.ofList segment) with
  | .ok name => .ok name
  | .error _ => .error (refusal .badRequest "Invalid URL: Invalid UTF-8 in \x60name\x60")

/-! ## Checking -/

/-- Accepts a name that is not blank. -/
def requireName (name : String) : Except Response Unit :=
  if Text.isBlankText name then
    .error (ServerError.badRequest "machine name is required").response
  else .ok ()

/-- Accepts what the driver accepts. -/
def require {α : Type} : Outcome α → Except Response α
  | .ok v => .ok v
  | .error e => .error (ServerError.driver e).response

/-- The credentials of a secret, if they are complete. -/
def requireCredentials (s : Secret) : Except Response Credentials := do
  require (Credentials.ofSecret s).validate
  return .ofSecret s

/-- What an operation on one machine needs: the name and the credentials. -/
def readNamed (segment : List Char) (r : Request) : Except Response (String × Credentials) := do
  let name ← readSegment segment
  let m ← readMessage MachineMessage.codec r
  -- The name was read before the content, but is judged after it.
  requireName name
  let credentials ← requireCredentials m.secret
  return (name, credentials)

/-- The command of a request to an endpoint. -/
def ofRequest (e : Endpoint) (r : Request) : Except Response Command :=
  match e with
  | .create => do
    let m ← readMessage CreateMessage.codec r
    requireName m.machineName
    require m.spec.validate
    let credentials ← requireCredentials m.secret
    return .create m.machineName m.spec credentials
  | .list => do
    let m ← readMessage ListMessage.codec r
    let credentials ← requireCredentials m.secret
    return .list m.spec credentials
  | .delete segment => do
    let (name, credentials) ← readNamed segment r
    return .delete name credentials
  | .status segment => do
    let (name, credentials) ← readNamed segment r
    return .status name credentials
  | .shutdown segment => do
    let (name, credentials) ← readNamed segment r
    return .shutdown name credentials

/-! ## Performing -/

/-- The response to the outcome of an operation. -/
def respondWith {α : Type} (status : Status) (write : α → Json) : Outcome α → Response
  | .ok v => { status := status, content := .json (write v) }
  | .error e => (ServerError.driver e).response

/-- Performs a command and gives the response to it. -/
def perform (policy : RetryPolicy) : Command → Program Response
  | .create name spec credentials => do
    return respondWith .created identifierMessage (← createMachine name spec credentials)
  | .list spec credentials => do
    return respondWith .ok machinesMessage (← listMachines spec credentials)
  | .delete name credentials => do
    return respondWith .ok identifierMessage (← deleteMachine name credentials)
  | .status name credentials => do
    return respondWith .ok identifierMessage (← machineStatus name credentials)
  | .shutdown name credentials => do
    return respondWith .ok identifierMessage (← shutdownMachine policy name credentials)

end Command

end MachineDriver
