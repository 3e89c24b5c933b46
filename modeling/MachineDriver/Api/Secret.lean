import MachineDriver.Api.Meta

set_option autoImplicit false

/-!
# Secrets

Byte strings under names, kept by a cluster.
-/

namespace MachineDriver

open Json (Codec Field Record)

/-- A secret. -/
structure Secret where
  data : Option (TextMap (List UInt8)) := none
  immutable : Option Bool := none
  metadata : ObjectMeta := {}
  stringData : Option (TextMap String) := none
  type : Option String := none
  deriving Repr, Inhabited

namespace Secret

/-- What secrets are among the resources of a cluster. -/
def resource : Resource where
  group := ""
  version := "v1"
  kind := "Secret"
  plural := "secrets"

/-- Secrets as open records. A version or kind that is written must be that of secrets. -/
def codec : Codec Secret :=
  Record.opened
    { fields :=
        .cons (.fixed "apiVersion" resource.apiVersion)
        <| .cons (.fixed "kind" resource.kind)
        <| .cons (.optional "data" (.map .bytes))
        <| .cons (.optional "immutable" .bool)
        <| .cons (.lenient "metadata" ObjectMeta.codec {})
        <| .cons (.optional "stringData" (.map .text))
        <| .cons (.optional "type" .text) .nil
      ofFields := fun ((), (), d, i, m, s, t, ()) => ⟨d, i, m, s, t⟩
      toFields := fun s => ((), (), s.data, s.immutable, s.metadata, s.stringData, s.type, ()) }

end Secret

end MachineDriver
