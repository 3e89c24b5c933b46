import MachineDriver.Server.Http

set_option autoImplicit false

/-!
# Routes

The paths that a server knows. A path names either the health check, which is open to all, or one
endpoint, which has a single method. A machine is named by one segment of the path, which is not
empty; the segment is matched as it is written, whatever it stands for once it is decoded.
-/

namespace MachineDriver

/-- What a server can be asked to do. The endpoints of one machine hold the segment that names
it. -/
inductive Endpoint where
  | create
  | list
  | delete (segment : List Char)
  | status (segment : List Char)
  | shutdown (segment : List Char)
  deriving DecidableEq, Repr, Inhabited

namespace Endpoint

/-- The method of an endpoint. -/
def method : Endpoint → String
  | .delete _ => "DELETE"
  | _ => "POST"

/-- The segment that names the machine. -/
def segment? : Endpoint → Option (List Char)
  | .create => none
  | .list => none
  | .delete s => some s
  | .status s => some s
  | .shutdown s => some s

end Endpoint

/-- A path that a server knows. -/
inductive Route where
  | health
  | endpoint (e : Endpoint)
  deriving DecidableEq, Repr, Inhabited

namespace Route

/-- The parts of a path between slashes. -/
def segments : List Char → List (List Char)
  | [] => [[]]
  | c :: cs =>
    match segments cs with
    | [] => [[c]]
    | s :: ss => if c = '/' then [] :: s :: ss else (c :: s) :: ss

/-- The route of the segments after the first slash of a path. -/
def ofSegments? : List (List Char) → Option Route
  | [resource] =>
    if resource = "healthz".toList then some .health
    else if resource = "machines".toList then some (.endpoint .create)
    else if resource = "machines:list".toList then some (.endpoint .list)
    else none
  | [resource, name] =>
    if resource = "machines".toList ∧ name ≠ [] then some (.endpoint (.delete name)) else none
  | [resource, name, action] =>
    if resource = "machines".toList ∧ name ≠ [] then
      if action = "status".toList then some (.endpoint (.status name))
      else if action = "shutdown".toList then some (.endpoint (.shutdown name))
      else none
    else none
  | _ => none

/-- The route of a path. -/
def ofPath? : List Char → Option Route
  | '/' :: rest => ofSegments? (segments rest)
  | _ => none

end Route

end MachineDriver
