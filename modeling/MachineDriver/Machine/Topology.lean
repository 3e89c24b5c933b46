import MachineDriver.Api.Affinity
import MachineDriver.Text.Blank
import MachineDriver.Text.Decimal

set_option autoImplicit false

/-!
# Topology

Where in a topology a machine is placed: on the nodes of one region and zone. The labels that tell
them have changed with version 1.17 of the cluster.
-/

namespace MachineDriver.Topology

/-- The labels that tell the region and the zone of a node. -/
structure Labels where
  region : String
  zone : String
  deriving DecidableEq, Repr, Inhabited

/-- The labels of clusters since version 1.17. -/
def Labels.current : Labels :=
  ⟨"topology.kubernetes.io/region", "topology.kubernetes.io/zone"⟩

/-- The labels of older clusters. -/
def Labels.legacy : Labels :=
  ⟨"failure-domain.beta.kubernetes.io/region", "failure-domain.beta.kubernetes.io/zone"⟩

/-! ## Versions -/

/-- The number that some characters begin with, if it has at most 32 bits. -/
def leadingNumber? (cs : List Char) : Option Nat :=
  Text.readBelow? 10 4294967296 (cs.takeWhile Text.isDigit)

/-- The characters up to the next dot. -/
def part (cs : List Char) : List Char :=
  cs.takeWhile (· ≠ '.')

/-- The major and minor number of a version. Blanks around it and the letters `v` at its front do
not count, nor does what follows the digits of either number. -/
def majorMinor? (version : String) : Option (Nat × Nat) :=
  let cs := (Text.trimChars version.toList).dropWhile (· = 'v')
  match cs.dropWhile (· ≠ '.') with
  | [] => none
  | _ :: rest =>
    match leadingNumber? (part cs), leadingNumber? (part rest) with
    | some major, some minor => some (major, minor)
    | _, _ => none

/-- Whether a cluster of a version has the older labels; one whose version cannot be read has
not. -/
def isLegacy (version : String) : Bool :=
  match majorMinor? version with
  | some (major, minor) => major < 1 || (major = 1 && minor < 17)
  | none => false

/-- The labels of a cluster of a version. -/
def labels (version : String) : Labels :=
  if isLegacy version then .legacy else .current

/-! ## Placement -/

/-- The requirement that a label has one value. -/
def requirement (label value : String) : KeyRequirement :=
  { key := label, operator := "In", values := some [value] }

/-- The nodes of a region and a zone; without both of them a machine may be placed anywhere. -/
def affinity? (region zone version : String) : Option Affinity :=
  if region = "" ∨ zone = "" then none
  else
    let ls := labels version
    let term : NodeTerm :=
      { matchExpressions := some [requirement ls.region region, requirement ls.zone zone]
        matchFields := none }
    some
      { nodeAffinity := some { preferred := none, required := some ⟨[term]⟩ }
        podAffinity := none
        podAntiAffinity := none }

end MachineDriver.Topology
