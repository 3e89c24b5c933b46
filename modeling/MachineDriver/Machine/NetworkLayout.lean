import MachineDriver.Machine.Spec
import MachineDriver.Yaml.Writer

set_option autoImplicit false

/-!
# Network layouts

The network cards of a machine, what each is attached to, and the settings by which the machine asks
for an address on each of them.
-/

namespace MachineDriver

/-- The network cards of a machine and the networks of the same names. -/
structure NetworkLayout where
  interfaces : List Interface
  networks : List Network
  networkData : Option String
  deriving DecidableEq, Repr, Inhabited

namespace NetworkLayout

/-- The name of the network that every workload shares. -/
def podName : String := "default"

/-- A name that ends in a number. -/
def numbered (stem : String) (n : Nat) : String :=
  stem ++ String.ofList (Text.decimal n)

/-- The cards of the networks of a list, numbered from a place on. -/
def bridges (place : Nat) : List NetworkSpec → List Interface
  | [] => []
  | _ :: specs => .ofBridge (numbered "net" place) :: bridges (place + 1) specs

/-- The networks of a list, numbered from a place on. -/
def attachments (place : Nat) : List NetworkSpec → List Network
  | [] => []
  | s :: specs =>
    .ofMultus (numbered "net" place) s.name s.default :: attachments (place + 1) specs

/-- Whether the shared network is attached: unless another one is the default. -/
def hasPod (specs : List NetworkSpec) : Bool :=
  !specs.any NetworkSpec.default

/-- The network cards of a list of networks. -/
def interfacesOf (specs : List NetworkSpec) : List Interface :=
  (if hasPod specs then [.ofMasquerade podName] else []) ++ bridges 0 specs

/-- The networks that the cards are attached to. -/
def networksOf (specs : List NetworkSpec) : List Network :=
  (if hasPod specs then [.ofPod podName] else []) ++ attachments 0 specs

/-- The settings of one card: it asks for an address. -/
def cardSettings : Yaml :=
  .mapping [(.text "dhcp4", .bool true)]

/-- The settings of the first cards of a machine, by the names that the machine gives them. -/
def cards (count : Nat) : TextMap Yaml :=
  TextMap.ofList ((List.range count).map fun i => (numbered "eth" i, cardSettings))

/-- The settings of a number of cards, in the order of their names as texts. -/
def settings (count : Nat) : Yaml :=
  .mapping
    [(.text "version", .integer 2),
      (.text "ethernets", .mapping ((cards count).entries.map fun e => (.text e.1, e.2)))]

/-- Settings as they are written. -/
def render (v : Yaml) : Except DriverError String :=
  match v.write with
  | .ok text => .ok text
  | .error reason => .error (.networkData reason)

/-- The layout of a list of networks. With no networks but the shared one, the machine needs no
settings. -/
def ofSpecs (specs : List NetworkSpec) : Except DriverError NetworkLayout :=
  if specs.isEmpty then
    .ok { interfaces := interfacesOf specs, networks := networksOf specs, networkData := none }
  else
    match render (settings (interfacesOf specs).length) with
    | .ok text =>
      .ok { interfaces := interfacesOf specs
            networks := networksOf specs
            networkData := some text }
    | .error e => .error e

end NetworkLayout

end MachineDriver
