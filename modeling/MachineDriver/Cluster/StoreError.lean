import MachineDriver.Text.Decimal
import MachineDriver.Text.Quoted

set_option autoImplicit false

/-!
# Store errors

Why a cluster does not carry out what it is asked to, as far as a caller can act on it: the object
does not exist, or it was changed by someone else, or anything else.
-/

namespace MachineDriver

/-- Why a call to a cluster fails. -/
inductive StoreError where
  | notFound
  | conflict (reason : String)
  | api (reason : String)
  deriving DecidableEq, Repr, Inhabited

namespace StoreError

/-- How an error is reported. -/
def message : StoreError → String
  | .notFound => "not found"
  | .conflict reason => "conflict: " ++ reason
  | .api reason => reason

/-- Whether an error says that the object does not exist. -/
def isNotFound : StoreError → Bool
  | .notFound => true
  | _ => false

/-- Whether an error says that the object was changed by someone else. -/
def isConflict : StoreError → Bool
  | .conflict _ => true
  | _ => false

end StoreError

/-- What a cluster answers when it refuses a request. -/
structure Refusal where
  status : String
  message : String
  reason : String
  code : UInt16
  deriving DecidableEq, Repr, Inhabited

namespace Refusal

/-- A refusal with all that it holds, as it is reported. -/
def detail (r : Refusal) : String :=
  "ApiError: " ++ r.message ++ ": " ++ r.reason ++ " (ErrorResponse \x7b status: "
    ++ Text.quoted r.status ++ ", message: " ++ Text.quoted r.message ++ ", reason: "
    ++ Text.quoted r.reason ++ ", code: " ++ String.ofList (Text.decimal r.code.toNat) ++ " \x7d)"

/-- What a refusal means to a caller, which only its code decides. -/
def storeError (r : Refusal) : StoreError :=
  if r.code = 404 then .notFound
  else if r.code = 409 then .conflict r.message
  else .api r.detail

end Refusal

end MachineDriver
