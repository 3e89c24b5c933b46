import MachineDriver.Api.Time

set_option autoImplicit false

/-!
# Object metadata

What every object of a cluster carries: its name and namespace, its labels, its version, and the
objects that own it.
-/

namespace MachineDriver

open Json (Codec Field Record)

/-- A reference to an object that owns another. -/
structure OwnerReference where
  apiVersion : String
  blockOwnerDeletion : Option Bool
  controller : Option Bool
  kind : String
  name : String
  uid : String
  deriving DecidableEq, Repr, Inhabited

/-- Owner references as open records. -/
def OwnerReference.codec : Codec OwnerReference :=
  Record.opened
    { fields :=
        .cons (.lenient "apiVersion" .text "")
        <| .cons (.optional "blockOwnerDeletion" .bool)
        <| .cons (.optional "controller" .bool)
        <| .cons (.lenient "kind" .text "")
        <| .cons (.lenient "name" .text "")
        <| .cons (.lenient "uid" .text "") .nil
      ofFields := fun (a, b, c, k, n, u, ()) => ⟨a, b, c, k, n, u⟩
      toFields := fun r =>
        (r.apiVersion, r.blockOwnerDeletion, r.controller, r.kind, r.name, r.uid, ()) }

/-- Which fields of an object a client manages. -/
structure ManagedFields where
  apiVersion : Option String
  fieldsType : Option String
  fieldsV1 : Option Json
  manager : Option String
  operation : Option String
  subresource : Option String
  time : Option Time
  deriving Repr, Inhabited

/-- Managed fields as open records. -/
def ManagedFields.codec : Codec ManagedFields :=
  Record.opened
    { fields :=
        .cons (.optional "apiVersion" .text)
        <| .cons (.optional "fieldsType" .text)
        <| .cons (.optional "fieldsV1" .any)
        <| .cons (.optional "manager" .text)
        <| .cons (.optional "operation" .text)
        <| .cons (.optional "subresource" .text)
        <| .cons (.optional "time" Time.codec) .nil
      ofFields := fun (a, t, f, m, o, s, w, ()) => ⟨a, t, f, m, o, s, w⟩
      toFields := fun m =>
        (m.apiVersion, m.fieldsType, m.fieldsV1, m.manager, m.operation, m.subresource, m.time,
          ()) }

/-- The metadata of an object. -/
structure ObjectMeta where
  annotations : Option (TextMap String) := none
  creationTimestamp : Option Time := none
  deletionGracePeriodSeconds : Option Int64 := none
  deletionTimestamp : Option Time := none
  finalizers : Option (List String) := none
  generateName : Option String := none
  generation : Option Int64 := none
  labels : Option (TextMap String) := none
  managedFields : Option (List ManagedFields) := none
  name : Option String := none
  ns? : Option String := none
  ownerReferences : Option (List OwnerReference) := none
  resourceVersion : Option String := none
  selfLink : Option String := none
  uid : Option String := none
  deriving Repr, Inhabited

namespace ObjectMeta

/-- Metadata as open records. -/
def codec : Codec ObjectMeta :=
  Record.opened
    { fields :=
        .cons (.optional "annotations" (.map .text))
        <| .cons (.optional "creationTimestamp" Time.codec)
        <| .cons (.optional "deletionGracePeriodSeconds" .int64)
        <| .cons (.optional "deletionTimestamp" Time.codec)
        <| .cons (.optional "finalizers" (.list .text))
        <| .cons (.optional "generateName" .text)
        <| .cons (.optional "generation" .int64)
        <| .cons (.optional "labels" (.map .text))
        <| .cons (.optional "managedFields" (.list ManagedFields.codec))
        <| .cons (.optional "name" .text)
        <| .cons (.optional "namespace" .text)
        <| .cons (.optional "ownerReferences" (.list OwnerReference.codec))
        <| .cons (.optional "resourceVersion" .text)
        <| .cons (.optional "selfLink" .text)
        <| .cons (.optional "uid" .text) .nil
      ofFields := fun (a, c, dg, d, f, gn, g, l, m, n, ns, o, r, s, u, ()) =>
        ⟨a, c, dg, d, f, gn, g, l, m, n, ns, o, r, s, u⟩
      toFields := fun m =>
        (m.annotations, m.creationTimestamp, m.deletionGracePeriodSeconds, m.deletionTimestamp,
          m.finalizers, m.generateName, m.generation, m.labels, m.managedFields, m.name,
          m.ns?, m.ownerReferences, m.resourceVersion, m.selfLink, m.uid, ()) }

/-- The name of an object as it is shown: its name, else the stem that a name is generated from,
else nothing. -/
def shownName (m : ObjectMeta) : String :=
  (m.name.orElse fun _ => m.generateName).getD ""

/-- The labels of an object. -/
def labelMap (m : ObjectMeta) : TextMap String :=
  m.labels.getD TextMap.empty

end ObjectMeta

/-- What tells the kinds of objects apart: group, version, kind and the plural used in paths. -/
structure Resource where
  group : String
  version : String
  kind : String
  plural : String
  deriving DecidableEq, Repr, Inhabited

namespace Resource

/-- The group and version of a resource as one text; the core group has no name. -/
def apiVersion (r : Resource) : String :=
  if r.group = "" then r.version else r.group ++ "/" ++ r.version

/-- The path of the objects of a resource, in one namespace or in all. -/
def path (r : Resource) (ns? : Option String) : String :=
  (if r.group = "" then "/api/" else "/apis/") ++ r.apiVersion ++ "/"
    ++ (match ns? with
      | some ns => "namespaces/" ++ ns ++ "/"
      | none => "")
    ++ r.plural

/-- The reference by which an object of a resource controls another; objects without a name or an
identity of their own control nothing. -/
def controllerReference? (r : Resource) (m : ObjectMeta) : Option OwnerReference :=
  match m.name, m.uid with
  | some name, some uid => some
    { apiVersion := r.apiVersion
      blockOwnerDeletion := none
      controller := some true
      kind := r.kind
      name := name
      uid := uid }
  | _, _ => none

end Resource

end MachineDriver
