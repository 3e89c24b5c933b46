import MachineDriver.Cluster.StoreError
import MachineDriver.Json.Codec
import MachineDriver.Json.Text
import MachineDriver.Uri

set_option autoImplicit false

/-!
# Replies

What a cluster sends back, and how it is read. A reply whose status tells of an error is a refusal,
whatever its body is; of any other reply the body is the object that was asked for.
-/

namespace MachineDriver

open Json (Codec Field Record)

/-- A status and the bytes that come with it. -/
structure Reply where
  status : UInt16
  body : List UInt8
  deriving DecidableEq, Repr, Inhabited

/-- Why a cluster gives no object. -/
inductive ReplyError where
  /-- An object must have a name to be asked for. -/
  | emptyName
  /-- The request has no valid target. -/
  | badTarget (fault : Uri.Fault)
  | refused (r : Refusal)
  /-- The body is no text. -/
  | badText (fault : Text.Utf8.Fault)
  /-- The body is no object of the kind that was asked for. -/
  | unreadable
  deriving DecidableEq, Repr

namespace ReplyError

/-- How an error is reported. -/
def message : ReplyError → String
  | .emptyName =>
    "Failed to build request: failed to validate request: A non-empty name is required"
  | .badTarget fault => "Failed to build request: failed to build request: " ++ fault.message
  | .refused r => r.detail
  | .badText fault => "UTF-8 Error: " ++ fault.message
  | .unreadable => "Error deserializing response"

/-- What an error means to a caller. -/
def storeError : ReplyError → StoreError
  | .refused r => r.storeError
  | e => .api e.message

end ReplyError

/-! ## Refusals -/

/-- The words that go with the number of a status. -/
def reasonPhrase? (status : Nat) : Option String :=
  match status with
  | 400 => some "Bad Request"
  | 401 => some "Unauthorized"
  | 402 => some "Payment Required"
  | 403 => some "Forbidden"
  | 404 => some "Not Found"
  | 405 => some "Method Not Allowed"
  | 406 => some "Not Acceptable"
  | 407 => some "Proxy Authentication Required"
  | 408 => some "Request Timeout"
  | 409 => some "Conflict"
  | 410 => some "Gone"
  | 411 => some "Length Required"
  | 412 => some "Precondition Failed"
  | 413 => some "Payload Too Large"
  | 414 => some "URI Too Long"
  | 415 => some "Unsupported Media Type"
  | 416 => some "Range Not Satisfiable"
  | 417 => some "Expectation Failed"
  | 418 => some "I\x27m a teapot"
  | 421 => some "Misdirected Request"
  | 422 => some "Unprocessable Entity"
  | 423 => some "Locked"
  | 424 => some "Failed Dependency"
  | 425 => some "Too Early"
  | 426 => some "Upgrade Required"
  | 428 => some "Precondition Required"
  | 429 => some "Too Many Requests"
  | 431 => some "Request Header Fields Too Large"
  | 451 => some "Unavailable For Legal Reasons"
  | 500 => some "Internal Server Error"
  | 501 => some "Not Implemented"
  | 502 => some "Bad Gateway"
  | 503 => some "Service Unavailable"
  | 504 => some "Gateway Timeout"
  | 505 => some "HTTP Version Not Supported"
  | 506 => some "Variant Also Negotiates"
  | 507 => some "Insufficient Storage"
  | 508 => some "Loop Detected"
  | 510 => some "Not Extended"
  | 511 => some "Network Authentication Required"
  | _ => none

/-- A status as a text. -/
def statusLine (status : UInt16) : String :=
  String.ofList (Text.decimal status.toNat) ++ " "
    ++ (reasonPhrase? status.toNat).getD "<unknown status code>"

/-- How a cluster writes a refusal. -/
def Refusal.codec : Codec Refusal :=
  Record.strict
    { fields :=
        .cons (.defaulted "status" .text "")
        <| .cons (.defaulted "message" .text "")
        <| .cons (.defaulted "reason" .text "")
        <| .cons (.required "code" .uint16) .nil
      ofFields := fun (s, m, r, c, ()) => ⟨s, m, r, c⟩
      toFields := fun r => (r.status, r.message, r.reason, r.code, ()) } []

/-- The refusal of a body that tells none: its status and its text stand for it. -/
def Refusal.ofText (status : UInt16) (text : String) : Refusal where
  status := statusLine status
  message := Text.quoted text
  reason := "Failed to parse error data"
  code := status

namespace Reply

/-- Whether the status of a reply tells of an error. -/
def isError (r : Reply) : Bool :=
  400 ≤ r.status && r.status < 600

/-- The refusal that a reply with a status of an error and a text is. -/
def refusal (r : Reply) (text : String) : Refusal :=
  match Json.readText Refusal.codec.read r.body with
  | .ok refusal => refusal
  | .error _ => .ofText r.status text

/-- Reads the body of a reply. -/
def read {α : Type} (readBody : List UInt8 → Option α) (r : Reply) : Except ReplyError α :=
  match Text.Utf8.decode r.body with
  | .error fault => .error (.badText fault)
  | .ok text =>
    if r.isError then .error (.refused (r.refusal text))
    else
      match readBody r.body with
      | some v => .ok v
      | none => .error .unreadable

/-! ## Bodies -/

/-- A value of one type. -/
def readAs? {α : Type} (c : Codec α) (body : List UInt8) : Option α :=
  match Json.readText c.read body with
  | .ok v => some v
  | .error _ => none

end Reply

end MachineDriver
