import MachineDriver.Json.Basic

set_option autoImplicit false

/-!
# Requests and responses

What a client sends and what it is answered. Header names do not depend on case, and of several
headers of one name the first counts. The path of a request is its target up to a query or a
fragment.
-/

namespace MachineDriver

/-- What a client sends. -/
structure Request where
  method : String
  target : String
  headers : List (String × List UInt8) := []
  body : List UInt8 := []
  deriving DecidableEq, Repr, Inhabited

namespace Request

/-- A letter without its case. -/
def lowerLetter (c : Char) : Char :=
  if 'A' ≤ c ∧ c ≤ 'Z' then Char.ofNat (c.toNat + 32) else c

/-- Whether two texts differ in the case of ASCII letters at most. -/
def sameName (a b : String) : Bool :=
  a.toList.map lowerLetter == b.toList.map lowerLetter

/-- The bytes of the first header of a name. -/
def header? (r : Request) (name : String) : Option (List UInt8) :=
  (r.headers.find? fun h => sameName h.1 name).map Prod.snd

/-- Whether a byte is a tab or an ASCII character that can be seen, blanks included. -/
def isVisible (byte : UInt8) : Bool :=
  byte = 0x09 || (0x20 ≤ byte && byte < 0x7F)

/-- The characters of bytes that all can be seen. -/
def visibleText? (bytes : List UInt8) : Option (List Char) :=
  if bytes.all isVisible then some (bytes.map fun b => Char.ofNat b.toNat) else none

/-- The characters of the first header of a name, if all can be seen. -/
def headerText? (r : Request) (name : String) : Option (List Char) :=
  (r.header? name).bind visibleText?

/-- The target of a request up to a query or a fragment. -/
def path (r : Request) : List Char :=
  r.target.toList.takeWhile fun c => c ≠ '?' ∧ c ≠ '#'

end Request

/-- The outcome of a request in a word. -/
inductive Status where
  | ok
  | created
  | badRequest
  | unauthorized
  | notFound
  | methodNotAllowed
  | contentTooLarge
  | unsupportedMediaType
  | unprocessableContent
  | internalServerError
  | badGateway
  deriving DecidableEq, Repr, Inhabited

/-- The number of a status. -/
def Status.code : Status → Nat
  | .ok => 200
  | .created => 201
  | .badRequest => 400
  | .unauthorized => 401
  | .notFound => 404
  | .methodNotAllowed => 405
  | .contentTooLarge => 413
  | .unsupportedMediaType => 415
  | .unprocessableContent => 422
  | .internalServerError => 500
  | .badGateway => 502

/-- What a response carries. -/
inductive Content where
  | empty
  | text (s : String)
  | json (j : Json)
  deriving Repr, Inhabited

/-- The media type of a content. -/
def Content.mediaType? : Content → Option String
  | .empty => none
  | .text _ => some "text/plain; charset=utf-8"
  | .json _ => some "application/json"

/-- What a client is answered. The content is not sent when only the head of the response is wanted,
but its media type is. -/
structure Response where
  status : Status
  content : Content := .empty
  /-- The methods that the path has, if the method of the request is none of them. -/
  allow : Option String := none
  headOnly : Bool := false
  deriving Repr, Inhabited

end MachineDriver
