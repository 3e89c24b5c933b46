import MachineDriver.Api.Selector

set_option autoImplicit false

/-!
# Affinity

Where a machine may be placed: rules on the labels of nodes, and on the other workloads of a node.
-/

namespace MachineDriver

open Json (Codec Field Record)

/-! ## Nodes -/

/-- Requirements on the labels and fields of a node, all of which must hold. -/
structure NodeTerm where
  matchExpressions : Option (List KeyRequirement)
  matchFields : Option (List KeyRequirement)
  deriving DecidableEq, Repr, Inhabited

/-- Terms as open records. -/
def NodeTerm.codec : Codec NodeTerm :=
  Record.opened
    { fields :=
        .cons (.optional "matchExpressions" (.list KeyRequirement.codec))
        <| .cons (.optional "matchFields" (.list KeyRequirement.codec)) .nil
      ofFields := fun (e, f, ()) => ⟨e, f⟩
      toFields := fun t => (t.matchExpressions, t.matchFields, ()) }

/-- Terms of which one must hold. -/
structure NodeSelector where
  nodeSelectorTerms : List NodeTerm
  deriving DecidableEq, Repr, Inhabited

/-- Selectors of nodes as open records. -/
def NodeSelector.codec : Codec NodeSelector :=
  Record.opened
    { fields := .cons (.lenient "nodeSelectorTerms" (.list NodeTerm.codec) []) .nil
      ofFields := fun (t, ()) => ⟨t⟩
      toFields := fun s => (s.nodeSelectorTerms, ()) }

/-- A term that counts for a node by its weight. -/
structure PreferredTerm where
  preference : NodeTerm
  weight : Int32
  deriving DecidableEq, Repr, Inhabited

/-- Preferred terms as open records. -/
def PreferredTerm.codec : Codec PreferredTerm :=
  Record.opened
    { fields :=
        .cons (.lenient "preference" NodeTerm.codec ⟨none, none⟩)
        <| .cons (.lenient "weight" .int32 0) .nil
      ofFields := fun (p, w, ()) => ⟨p, w⟩
      toFields := fun t => (t.preference, t.weight, ()) }

/-- Rules on the labels of nodes. -/
structure NodeAffinity where
  preferred : Option (List PreferredTerm)
  required : Option NodeSelector
  deriving DecidableEq, Repr, Inhabited

/-- Rules on nodes as open records. -/
def NodeAffinity.codec : Codec NodeAffinity :=
  Record.opened
    { fields :=
        .cons (.optional "preferredDuringSchedulingIgnoredDuringExecution"
          (.list PreferredTerm.codec))
        <| .cons (.optional "requiredDuringSchedulingIgnoredDuringExecution" NodeSelector.codec)
          .nil
      ofFields := fun (p, r, ()) => ⟨p, r⟩
      toFields := fun a => (a.preferred, a.required, ()) }

/-! ## Workloads -/

/-- Workloads that share a topology domain. -/
structure WorkloadTerm where
  labelSelector : Option ObjectSelector
  matchLabelKeys : Option (List String)
  mismatchLabelKeys : Option (List String)
  namespaceSelector : Option ObjectSelector
  namespaces : Option (List String)
  topologyKey : String
  deriving DecidableEq, Repr, Inhabited

/-- Terms on workloads as open records. -/
def WorkloadTerm.codec : Codec WorkloadTerm :=
  Record.opened
    { fields :=
        .cons (.optional "labelSelector" ObjectSelector.codec)
        <| .cons (.optional "matchLabelKeys" (.list .text))
        <| .cons (.optional "mismatchLabelKeys" (.list .text))
        <| .cons (.optional "namespaceSelector" ObjectSelector.codec)
        <| .cons (.optional "namespaces" (.list .text))
        <| .cons (.lenient "topologyKey" .text "") .nil
      ofFields := fun (l, m, mm, ns, n, t, ()) => ⟨l, m, mm, ns, n, t⟩
      toFields := fun w =>
        (w.labelSelector, w.matchLabelKeys, w.mismatchLabelKeys, w.namespaceSelector,
          w.namespaces, w.topologyKey, ()) }

/-- A term on workloads that counts by its weight. -/
structure WeightedWorkloadTerm where
  podAffinityTerm : WorkloadTerm
  weight : Int32
  deriving DecidableEq, Repr, Inhabited

/-- Weighted terms as open records. -/
def WeightedWorkloadTerm.codec : Codec WeightedWorkloadTerm :=
  Record.opened
    { fields :=
        .cons (.lenient "podAffinityTerm" WorkloadTerm.codec default)
        <| .cons (.lenient "weight" .int32 0) .nil
      ofFields := fun (p, w, ()) => ⟨p, w⟩
      toFields := fun t => (t.podAffinityTerm, t.weight, ()) }

/-- Rules on the other workloads of a topology domain. -/
structure WorkloadAffinity where
  preferred : Option (List WeightedWorkloadTerm)
  required : Option (List WorkloadTerm)
  deriving DecidableEq, Repr, Inhabited

/-- Rules on workloads as open records. -/
def WorkloadAffinity.codec : Codec WorkloadAffinity :=
  Record.opened
    { fields :=
        .cons (.optional "preferredDuringSchedulingIgnoredDuringExecution"
          (.list WeightedWorkloadTerm.codec))
        <| .cons (.optional "requiredDuringSchedulingIgnoredDuringExecution"
          (.list WorkloadTerm.codec)) .nil
      ofFields := fun (p, r, ()) => ⟨p, r⟩
      toFields := fun a => (a.preferred, a.required, ()) }

/-- Where a machine may be placed. -/
structure Affinity where
  nodeAffinity : Option NodeAffinity
  podAffinity : Option WorkloadAffinity
  podAntiAffinity : Option WorkloadAffinity
  deriving DecidableEq, Repr, Inhabited

/-- Affinities as open records. -/
def Affinity.codec : Codec Affinity :=
  Record.opened
    { fields :=
        .cons (.optional "nodeAffinity" NodeAffinity.codec)
        <| .cons (.optional "podAffinity" WorkloadAffinity.codec)
        <| .cons (.optional "podAntiAffinity" WorkloadAffinity.codec) .nil
      ofFields := fun (n, p, a, ()) => ⟨n, p, a⟩
      toFields := fun a => (a.nodeAffinity, a.podAffinity, a.podAntiAffinity, ()) }

end MachineDriver
