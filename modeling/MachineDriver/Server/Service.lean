import MachineDriver.Server.Command
import MachineDriver.Server.Config

set_option autoImplicit false

/-!
# The service

How a server answers a request. The health check is open to all. Everything else, unknown paths
included, is for those who show the token of the server, if it has one. A request runs at most one
command, and only when nothing refuses it.
-/

namespace MachineDriver

/-- Whether a request shows the token that a server wants. -/
def Config.admits (c : Config) (r : Request) : Bool :=
  match c.apiToken with
  | none => true
  | some token => r.headerText? "authorization" == some ("Bearer ".toList ++ token.toList)

namespace Service

/-- The answer to a health check. -/
def health (method : String) : Response :=
  if method = "GET" ∨ method = "HEAD" then { status := .ok, content := .text "ok" }
  else { status := .methodNotAllowed, allow := some "GET,HEAD" }

/-- The refusal of a request that shows no token. -/
def unauthorized : Response :=
  ServerError.unauthorized.response

/-- The command of a request, or the response that refuses it. -/
def accept (c : Config) (r : Request) : Except Response Command :=
  match Route.ofPath? r.path with
  | none => .error (if c.admits r then { status := .notFound } else unauthorized)
  | some .health => .error (health r.method)
  | some (.endpoint e) =>
    if r.method = e.method then
      if c.admits r then Command.ofRequest e r else .error unauthorized
    else
      -- The method that would do is told even to those who show no token.
      let refusal := if c.admits r then { status := .methodNotAllowed } else unauthorized
      .error { refusal with allow := some e.method }

/-- Answers a request. -/
def respond (c : Config) (r : Request) : Program Response :=
  match accept c r with
  | .ok command => command.perform c.retryPolicy
  | .error response => return { response with headOnly := r.method = "HEAD" }

end Service

end MachineDriver
