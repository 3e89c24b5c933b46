import MachineDriver.Machine.Error
import MachineDriver.Server.Http

set_option autoImplicit false

/-!
# Server errors

Why a server does not do what a request asks for, and how it says so. What the caller can put right
is a client error; what the cluster did is not.
-/

namespace MachineDriver

/-- Why a server does not do what a request asks for. -/
inductive ServerError where
  | badRequest (reason : String)
  | unauthorized
  | driver (e : DriverError)
  deriving DecidableEq, Repr, Inhabited

namespace ServerError

/-- How an error is reported. -/
def message : ServerError → String
  | .badRequest reason => reason
  | .unauthorized => "unauthorized"
  | .driver e => e.message

/-- The status of the response to an operation that fails. -/
def statusOf : DriverError → Status
  | .machineNotFound _ => .notFound
  | .invalidSpec _ => .badRequest
  | .invalidCredentials _ => .badRequest
  | .invalidProviderId _ => .badRequest
  | .userData _ => .badRequest
  | .networkData _ => .internalServerError
  | .client _ => .badGateway
  | .serverVersion _ => .badGateway
  | .object .. => .badGateway
  | .list .. => .badGateway

/-- The status of an error. -/
def status : ServerError → Status
  | .badRequest _ => .badRequest
  | .unauthorized => .unauthorized
  | .driver e => statusOf e

/-- The response that reports an error. -/
def response (e : ServerError) : Response :=
  { status := e.status, content := .json (.object [("error", .string e.message)]) }

end ServerError

end MachineDriver
