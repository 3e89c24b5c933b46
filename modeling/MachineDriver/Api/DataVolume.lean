import MachineDriver.Api.Claim
import MachineDriver.Api.Meta

set_option autoImplicit false

/-!
# Data volumes

A volume claim together with where its contents come from.
-/

namespace MachineDriver

open Json (Codec Field Record)

/-- An image that is fetched from an address. -/
structure HttpSource where
  url : String
  deriving DecidableEq, Repr, Inhabited

/-- Addresses of images as records. -/
def HttpSource.codec : Codec HttpSource :=
  Record.strict
    { fields := .cons (.required "url" .text) .nil
      ofFields := fun (u, ()) => ⟨u⟩
      toFields := fun s => (s.url, ()) } []

/-- A claim whose volume is cloned. -/
structure ClaimSource where
  name : String
  ns : String
  deriving DecidableEq, Repr, Inhabited

/-- Claims to clone as records. -/
def ClaimSource.codec : Codec ClaimSource :=
  Record.strict
    { fields := .cons (.required "name" .text) <| .cons (.required "namespace" .text) .nil
      ofFields := fun (n, ns, ()) => ⟨n, ns⟩
      toFields := fun s => (s.name, s.ns, ()) } []

/-- Where the contents of a data volume come from. -/
structure VolumeSource where
  http : Option HttpSource
  pvc : Option ClaimSource
  deriving DecidableEq, Repr, Inhabited

namespace VolumeSource

/-- Sources as records. -/
def codec : Codec VolumeSource :=
  Record.strict
    { fields :=
        .cons (.optional "http" HttpSource.codec)
        <| .cons (.optional "pvc" ClaimSource.codec) .nil
      ofFields := fun (h, p, ()) => ⟨h, p⟩
      toFields := fun s => (s.http, s.pvc, ()) } []

/-- Contents fetched from an address. -/
def ofUrl (url : String) : VolumeSource :=
  ⟨some ⟨url⟩, none⟩

/-- Contents cloned from a claim. -/
def ofClaim (name ns : String) : VolumeSource :=
  ⟨none, some ⟨name, ns⟩⟩

end VolumeSource

/-- What a data volume is asked for. -/
structure DataVolumeSpec where
  source : Option VolumeSource
  pvc : Option ClaimSpec
  deriving DecidableEq, Repr, Inhabited

/-- Data volume settings as records. -/
def DataVolumeSpec.codec : Codec DataVolumeSpec :=
  Record.strict
    { fields :=
        .cons (.optional "source" VolumeSource.codec)
        <| .cons (.optional "pvc" ClaimSpec.codec) .nil
      ofFields := fun (s, p, ()) => ⟨s, p⟩
      toFields := fun d => (d.source, d.pvc, ()) } []

/-- A volume claim together with where its contents come from. -/
structure DataVolume where
  metadata : ObjectMeta
  spec : DataVolumeSpec
  deriving Repr, Inhabited

namespace DataVolume

/-- What data volumes are among the resources of a cluster. -/
def resource : Resource where
  group := "cdi.kubevirt.io"
  version := "v1beta1"
  kind := "DataVolume"
  plural := "datavolumes"

/-- Data volumes as records, written with their version and kind. -/
def codec : Codec DataVolume :=
  Record.strict
    { fields :=
        .cons (.required "metadata" ObjectMeta.codec)
        <| .cons (.required "spec" DataVolumeSpec.codec) .nil
      ofFields := fun (m, s, ()) => ⟨m, s⟩
      toFields := fun d => (d.metadata, d.spec, ()) }
    [("apiVersion", resource.apiVersion), ("kind", resource.kind)]

end DataVolume

end MachineDriver
