import MachineDriver.Api.Secret
import MachineDriver.Api.VirtualMachine
import MachineDriver.Cluster.LabelSelector
import MachineDriver.Cluster.MergePatch
import MachineDriver.Cluster.Reply
import MachineDriver.Text.Percent

set_option autoImplicit false

/-!
# Exchanges

A call on the objects of a cluster is one exchange: a request, and a way to read the reply to it.
Names and namespaces go into the path of the request as they are.
-/

namespace MachineDriver

open Json (Codec Field Record)

/-- A request to a cluster. The target is a path and perhaps a query. -/
structure ApiRequest where
  method : String
  target : List Char
  contentType : Option String := none
  body : Option Json := none
  deriving Repr, Inhabited

/-- The path of a request. -/
def ApiRequest.path (r : ApiRequest) : List Char :=
  r.target.takeWhile (· ≠ '?')

/-- A request, unless none can be made, and how the reply to it is read. -/
structure Exchange (α : Type) where
  request : Except StoreError ApiRequest
  read : Reply → Except ReplyError α

namespace Exchange

variable {α : Type}

/-- The outcome of an exchange with a cluster that replies in some way. -/
def run (e : Exchange α) (reply : ApiRequest → Reply) : Except StoreError α :=
  match e.request with
  | .error fault => .error fault
  | .ok r =>
    match e.read (reply r) with
    | .ok v => .ok v
    | .error fault => .error fault.storeError

/-! ## Requests -/

/-- A request to a place, which must be a valid identifier. -/
def requestTo (method place : String) (contentType : Option String) (body : Option Json) :
    Except StoreError ApiRequest :=
  match Uri.ofText place with
  | .ok uri => .ok ⟨method, uri.target, contentType, body⟩
  | .error fault => .error (ReplyError.badTarget fault).storeError

/-- The place of one object. -/
def objectPlace (r : Resource) (ns name : String) : String :=
  r.path (some ns) ++ "/" ++ name

/-- A request about one object, which must have a name. -/
def requestNamed (name : String) (request : Except StoreError ApiRequest) :
    Except StoreError ApiRequest :=
  if name = "" then .error ReplyError.emptyName.storeError else request

/-- The content type of documents. -/
def documentType : String := "application/json"

/-- The content type of merge patches. -/
def patchType : String := "application/merge-patch+json"

/-- Who the changes of objects are put down to. -/
def fieldManager : String := "mcm-kubevirt"

/-- Reads one object. -/
def get (r : Resource) (c : Codec α) (ns name : String) : Exchange α where
  request := requestNamed name (requestTo "GET" (objectPlace r ns name) none none)
  read := Reply.read (Reply.readAs? c)

/-- Creates an object in the namespace that it tells. -/
def create (r : Resource) (c : Codec α) (m : ObjectMeta) (v : α) : Exchange α where
  request :=
    match m.ns? with
    | none => .error (.api (m.shownName ++ " has no namespace"))
    | some ns => requestTo "POST" (r.path (some ns) ++ "?") (some documentType) (some (c.write v))
  read := Reply.read (Reply.readAs? c)

/-! ## Lists -/

/-- What is told about a list as a whole. -/
structure ListMeta where
  next : Option String
  remaining : Option Int64
  version : Option String
  link : Option String
  deriving DecidableEq, Repr, Inhabited

/-- What is told about lists, as open records. -/
def ListMeta.codec : Codec ListMeta :=
  Record.opened
    { fields :=
        .cons (.optional "continue" .text)
        <| .cons (.optional "remainingItemCount" .int64)
        <| .cons (.optional "resourceVersion" .text)
        <| .cons (.optional "selfLink" .text) .nil
      ofFields := fun (n, r, v, l, ()) => ⟨n, r, v, l⟩
      toFields := fun m => (m.next, m.remaining, m.version, m.link, ()) }

/-- Lists of objects with what is told about them. -/
def listCodec (c : Codec α) : Codec (List α) :=
  Record.strict
    { fields :=
        .cons (.defaulted "apiVersion" .text "")
        <| .cons (.defaulted "kind" .text "")
        <| .cons (.defaulted "metadata" ListMeta.codec ⟨none, none, none, none⟩)
        <| .cons { Json.Field.lenient "items" (.list c) [] with absent := none } .nil
      ofFields := fun (_, _, _, items, ()) => items
      toFields := fun items => ("", "", ⟨none, none, none, none⟩, items, ()) } []

/-- Reads a list, which is no array. Fields that are not passed over must be documents of their own
right. -/
def readList (c : Codec α) : Json → Except Json.Error (List α)
  | .object fields =>
    match Json.readAnyFields (fields.filter fun f => f.1 ≠ "metadata" ∧ f.1 ≠ "items") with
    | .ok _ => (listCodec c).read (.object fields)
    | .error e => .error e
  | j => .error (Json.unexpected j)

/-- Reads the machines of a namespace that carry labels. -/
def listVirtualMachines (ns : String) (labels : TextMap String) :
    Exchange (List VirtualMachine) where
  request :=
    let query := match LabelSelector.ofLabels? labels with
      | some selector => "&labelSelector=" ++ Text.Percent.encodeForm selector
      | none => ""
    requestTo "GET" (VirtualMachine.resource.path (some ns) ++ "?" ++ query) none none
  read := Reply.read (Reply.readAs? ⟨readList VirtualMachine.codec, fun _ => .null⟩)

/-! ## Deletion -/

/-- Whether an action succeeded, as a text or as the only name of an object. -/
def summaryCodec : Codec Bool where
  read
    | .string "Success" => .ok true
    | .string "Failure" => .ok false
    | .object [("Success", .null)] => .ok true
    | .object [("Failure", .null)] => .ok false
    | j => .error (Json.unexpected j)
  write succeeded := .string (if succeeded then "Success" else "Failure")

/-- One cause of a status. -/
def causeCodec : Codec (String × String × String × Unit) :=
  Record.strict
    { fields :=
        .cons (.defaulted "reason" .text "")
        <| .cons (.defaulted "message" .text "")
        <| .cons (.defaulted "field" .text "") .nil
      ofFields := id
      toFields := id } []

/-- The details of a status, of which nothing is kept. -/
def detailsCodec : Codec Unit :=
  Record.strict
    { fields :=
        .cons (.defaulted "name" .text "")
        <| .cons (.defaulted "group" .text "")
        <| .cons (.defaulted "kind" .text "")
        <| .cons (.defaulted "uid" .text "")
        <| .cons (.many "causes" causeCodec)
        <| .cons (.defaulted "retryAfterSeconds" .uint32 0) .nil
      ofFields := fun _ => ()
      toFields := fun _ => ("", "", "", "", [], 0, ()) } []

/-- The status of an action, of which nothing is kept. -/
def statusCodec : Codec Unit :=
  Record.strict
    { fields :=
        .cons (.optional "status" summaryCodec)
        <| .cons (.defaulted "code" .uint16 0)
        <| .cons (.defaulted "message" .text "")
        <| .cons (.defaulted "reason" .text "")
        <| .cons (.optional "details" detailsCodec) .nil
      ofFields := fun _ => ()
      toFields := fun _ => (none, 0, "", "", none, ()) } []

/-- Reads what is left of a machine that is being deleted: a status, or the machine itself. -/
def readDeleted? (body : List UInt8) : Option Unit :=
  match Reply.readAs? Codec.any body with
  | none => none
  | some j =>
    match j.get? "kind" with
    | some (.string "Status") => Reply.readAs? statusCodec body
    | _ => (Reply.readAs? VirtualMachine.codec body).map fun _ => ()

/-- Deletes a machine. -/
def deleteVirtualMachine (ns name : String) : Exchange Unit where
  request :=
    requestNamed name
      (requestTo "DELETE" (objectPlace VirtualMachine.resource ns name ++ "?") (some documentType)
        (some (.object [])))
  read := Reply.read readDeleted?

/-! ## The other calls -/

/-- Reads a machine. -/
def getVirtualMachine (ns name : String) : Exchange VirtualMachine :=
  get VirtualMachine.resource VirtualMachine.codec ns name

/-- Creates a machine. -/
def createVirtualMachine (vm : VirtualMachine) : Exchange VirtualMachine :=
  create VirtualMachine.resource VirtualMachine.codec vm.metadata vm

/-- Sets whether a machine is to run, if it still has the given version. -/
def setRunning (ns name : String) (version : Option String) (running : Bool) :
    Exchange VirtualMachine where
  request :=
    requestNamed name
      (requestTo "PATCH"
        (objectPlace VirtualMachine.resource ns name ++ "?&fieldManager=" ++ fieldManager)
        (some patchType) (some (MergePatch.ofRunning version running)))
  read := Reply.read (Reply.readAs? VirtualMachine.codec)

/-- Reads a volume. -/
def getDataVolume (ns name : String) : Exchange DataVolume :=
  get DataVolume.resource DataVolume.codec ns name

/-- Creates a secret. -/
def createSecret (s : Secret) : Exchange Secret :=
  create Secret.resource Secret.codec s.metadata s

end Exchange

end MachineDriver
