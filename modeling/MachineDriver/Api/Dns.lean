import MachineDriver.Json.Codec

set_option autoImplicit false

/-!
# Name resolution

The resolver settings of a machine.
-/

namespace MachineDriver

open Json (Codec Field Record)

/-- An option of the resolver. -/
structure DnsOption where
  name : Option String
  value : Option String
  deriving DecidableEq, Repr, Inhabited

/-- Resolver options as open records. -/
def DnsOption.codec : Codec DnsOption :=
  Record.opened
    { fields := .cons (.optional "name" .text) <| .cons (.optional "value" .text) .nil
      ofFields := fun (n, v, ()) => ⟨n, v⟩
      toFields := fun o => (o.name, o.value, ()) }

/-- The resolver settings of a machine. -/
structure DnsConfig where
  nameservers : Option (List String)
  options : Option (List DnsOption)
  searches : Option (List String)
  deriving DecidableEq, Repr, Inhabited

/-- Resolver settings as open records. -/
def DnsConfig.codec : Codec DnsConfig :=
  Record.opened
    { fields :=
        .cons (.optional "nameservers" (.list .text))
        <| .cons (.optional "options" (.list DnsOption.codec))
        <| .cons (.optional "searches" (.list .text)) .nil
      ofFields := fun (n, o, s, ()) => ⟨n, o, s⟩
      toFields := fun c => (c.nameservers, c.options, c.searches, ()) }

end MachineDriver
