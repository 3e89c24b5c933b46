import MachineDriver.Api.VirtualMachine
import MachineDriver.Machine.Error
import MachineDriver.Text.Blank

set_option autoImplicit false

/-!
# Machine specifications

What a machine class asks for, and the conditions that it must meet before a machine is made of it.
-/

namespace MachineDriver

open Json (Codec Field Record)

/-- A network that a machine is attached to besides the shared one, or in its place. -/
structure NetworkSpec where
  name : String
  default : Bool
  deriving DecidableEq, Repr, Inhabited

/-- Networks as records. -/
def NetworkSpec.codec : Codec NetworkSpec :=
  Record.strict
    { fields := .cons (.required "name" .text) <| .cons (.defaulted "default" .bool false) .nil
      ofFields := fun (n, d, ()) => ⟨n, d⟩
      toFields := fun n => (n.name, n.default, ()) } []

/-- What a machine class asks for. -/
structure MachineSpec where
  sourceUrl : String := ""
  storageClassName : String := ""
  pvcSize : String := ""
  cpu : Option Cpu := none
  memory : Option Memory := none
  resources : Resources := {}
  dnsPolicy : Option String := none
  dnsConfig : Option DnsConfig := none
  region : String := ""
  zone : String := ""
  sshKeys : List String := []
  networks : List NetworkSpec := []
  tags : TextMap String := TextMap.empty
  deriving DecidableEq, Repr, Inhabited

namespace MachineSpec

/-- Specifications as records, of which no field need be given. -/
def codec : Codec MachineSpec :=
  Record.strict
    { fields :=
        .cons (.defaulted "sourceURL" .text "")
        <| .cons (.defaulted "storageClassName" .text "")
        <| .cons (.defaulted "pvcSize" .text "")
        <| .cons (.optional "cpu" Cpu.codec)
        <| .cons (.optional "memory" Memory.codec)
        <| .cons (.defaulted "resources" Resources.codec {})
        <| .cons (.optional "dnsPolicy" .text)
        <| .cons (.optional "dnsConfig" DnsConfig.codec)
        <| .cons (.defaulted "region" .text "")
        <| .cons (.defaulted "zone" .text "")
        <| .cons (.many "sshKeys" .text)
        <| .cons (.many "networks" NetworkSpec.codec)
        <| .cons (.mapping "tags" .text) .nil
      ofFields := fun (s, sc, p, c, m, r, dp, dc, re, z, k, n, t, ()) =>
        ⟨s, sc, p, c, m, r, dp, dc, re, z, k, n, t⟩
      toFields := fun s =>
        (s.sourceUrl, s.storageClassName, s.pvcSize, s.cpu, s.memory, s.resources, s.dnsPolicy,
          s.dnsConfig, s.region, s.zone, s.sshKeys, s.networks, s.tags, ()) } []

end MachineSpec

/-! ## Validity -/

/-- A condition that a specification does not meet. -/
inductive Violation where
  | noSource
  | noStorageClass
  | noSize
  | noMemoryRequest
  | blankKey (index : Nat)
  | blankNetwork (index : Nat)
  | severalDefaults
  deriving DecidableEq, Repr, Inhabited

/-- How a violation is reported. -/
def Violation.message : Violation → String
  | .noSource => "sourceURL is required"
  | .noStorageClass => "storageClassName is required"
  | .noSize => "pvcSize is required"
  | .noMemoryRequest => "resources.requests.memory is required"
  | .blankKey i => "sshKeys[" ++ String.ofList (Text.decimal i) ++ "] is empty"
  | .blankNetwork i => "networks[" ++ String.ofList (Text.decimal i) ++ "].name is required"
  | .severalDefaults => "at most one network may be default"

namespace MachineSpec

/-- The violation of a condition, unless the condition is met. -/
def require (met : Bool) (v : Violation) : List Violation :=
  if met then [] else [v]

/-- The places, counted from a number, at which a list has a blank text. -/
def blankPlaces (place : Nat) : List String → List Nat
  | [] => []
  | s :: rest =>
    if Text.isBlankText s then place :: blankPlaces (place + 1) rest
    else blankPlaces (place + 1) rest

/-- The conditions that a specification does not meet, in the order in which they are reported. -/
def violations (s : MachineSpec) : List Violation :=
  require (!Text.isBlankText s.sourceUrl) .noSource
    ++ require (!Text.isBlankText s.storageClassName) .noStorageClass
    ++ require (!Text.isBlankText s.pvcSize) .noSize
    ++ require (s.resources.requests.contains "memory") .noMemoryRequest
    ++ (blankPlaces 0 s.sshKeys).map .blankKey
    ++ (blankPlaces 0 (s.networks.map NetworkSpec.name)).map .blankNetwork
    ++ require ((s.networks.filter NetworkSpec.default).length ≤ 1) .severalDefaults

/-- Accepts a specification that meets all conditions. -/
def validate (s : MachineSpec) : Except DriverError Unit :=
  match s.violations with
  | [] => .ok ()
  | vs => .error (.invalidSpec ("; ".intercalate (vs.map Violation.message)))

end MachineSpec

end MachineDriver
