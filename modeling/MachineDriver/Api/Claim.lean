import MachineDriver.Api.Selector

set_option autoImplicit false

/-!
# Volume claims

What a volume is asked for: its size, its class, and how it may be accessed.
-/

namespace MachineDriver

open Json (Codec Field Record)

/-- A reference to an object of the same namespace, by group, kind and name. -/
structure LocalTypedReference where
  apiGroup : Option String
  kind : String
  name : String
  deriving DecidableEq, Repr, Inhabited

/-- References as open records. -/
def LocalTypedReference.codec : Codec LocalTypedReference :=
  Record.opened
    { fields :=
        .cons (.optional "apiGroup" .text)
        <| .cons (.lenient "kind" .text "")
        <| .cons (.lenient "name" .text "") .nil
      ofFields := fun (g, k, n, ()) => ⟨g, k, n⟩
      toFields := fun r => (r.apiGroup, r.kind, r.name, ()) }

/-- A reference to an object of any namespace, by group, kind and name. -/
structure TypedReference where
  apiGroup : Option String
  kind : String
  name : String
  ns? : Option String
  deriving DecidableEq, Repr, Inhabited

/-- References as open records. -/
def TypedReference.codec : Codec TypedReference :=
  Record.opened
    { fields :=
        .cons (.optional "apiGroup" .text)
        <| .cons (.lenient "kind" .text "")
        <| .cons (.lenient "name" .text "")
        <| .cons (.optional "namespace" .text) .nil
      ofFields := fun (g, k, n, ns, ()) => ⟨g, k, n, ns⟩
      toFields := fun r => (r.apiGroup, r.kind, r.name, r.ns?, ()) }

/-- The quantities that a volume is asked for. -/
structure VolumeResources where
  limits : Option (TextMap String)
  requests : Option (TextMap String)
  deriving DecidableEq, Repr, Inhabited

/-- Volume resources as open records. -/
def VolumeResources.codec : Codec VolumeResources :=
  Record.opened
    { fields :=
        .cons (.optional "limits" (.map .text))
        <| .cons (.optional "requests" (.map .text)) .nil
      ofFields := fun (l, r, ()) => ⟨l, r⟩
      toFields := fun v => (v.limits, v.requests, ()) }

/-- What a volume is asked for. -/
structure ClaimSpec where
  accessModes : Option (List String) := none
  dataSource : Option LocalTypedReference := none
  dataSourceRef : Option TypedReference := none
  resources : Option VolumeResources := none
  selector : Option ObjectSelector := none
  storageClassName : Option String := none
  volumeAttributesClassName : Option String := none
  volumeMode : Option String := none
  volumeName : Option String := none
  deriving DecidableEq, Repr, Inhabited

/-- Claims as open records. -/
def ClaimSpec.codec : Codec ClaimSpec :=
  Record.opened
    { fields :=
        .cons (.optional "accessModes" (.list .text))
        <| .cons (.optional "dataSource" LocalTypedReference.codec)
        <| .cons (.optional "dataSourceRef" TypedReference.codec)
        <| .cons (.optional "resources" VolumeResources.codec)
        <| .cons (.optional "selector" ObjectSelector.codec)
        <| .cons (.optional "storageClassName" .text)
        <| .cons (.optional "volumeAttributesClassName" .text)
        <| .cons (.optional "volumeMode" .text)
        <| .cons (.optional "volumeName" .text) .nil
      ofFields := fun (a, d, dr, r, s, c, ac, m, n, ()) => ⟨a, d, dr, r, s, c, ac, m, n⟩
      toFields := fun c =>
        (c.accessModes, c.dataSource, c.dataSourceRef, c.resources, c.selector,
          c.storageClassName, c.volumeAttributesClassName, c.volumeMode, c.volumeName, ()) }

end MachineDriver
