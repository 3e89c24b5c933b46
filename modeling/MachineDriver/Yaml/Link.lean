import MachineDriver.Yaml.Node

set_option autoImplicit false

/-!
# Aliases

Nodes in which every alias is a number that says which anchored node it stands for. An anchor takes
as its number how many names there are so far; a name that is given again keeps their count, so a
number may come to belong to a later node.
-/

namespace MachineDriver.Yaml

/-- A node whose aliases are numbers. -/
inductive Linked where
  | alias (number : Nat)
  | scalar (tag : Option (List UInt8)) (plain : Bool) (text : List Char)
  | sequence (tag : Option (List UInt8)) (items : List Linked)
  | mapping (tag : Option (List UInt8)) (entries : List (Linked × Linked))
  deriving Repr, Inhabited

/-- An anchored node: its number, and how many marks of the document come before it. -/
structure Anchored where
  number : Nat
  place : Nat
  node : Linked
  deriving Repr, Inhabited

/-- What is known when part of a document has been linked: the numbers of the names, the anchored
nodes, and the number of marks; a scalar or alias is one mark, a collection has one at either
end. -/
structure Links where
  names : List (String × Nat) := []
  anchored : List Anchored := []
  marks : Nat := 0
  deriving Repr, Inhabited

namespace Links

/-- Gives a name the number that is due. -/
def name (l : Links) : Option String → Links × Option Nat
  | none => (l, none)
  | some a =>
    -- A repeated name leaves the count as it is, so the next anchor may get the same number.
    let n := l.names.length
    ({ l with names := (a, n) :: l.names.filter fun e => e.1 ≠ a }, some n)

/-- One more mark. -/
def mark (l : Links) : Links :=
  { l with marks := l.marks + 1 }

/-- Keeps a node that has a number. -/
def keep (l : Links) (number : Option Nat) (place : Nat) (node : Linked) : Links :=
  match number with
  | some n => { l with anchored := ⟨n, place, node⟩ :: l.anchored }
  | none => l

/-- The last of the anchored nodes with a number. -/
def target? (l : Links) (number : Nat) : Option Linked :=
  let last := l.anchored.foldl (fun best a =>
    if a.number ≠ number then best
    else
      match best with
      | some b => if b.place < a.place then some a else best
      | none => some a) none
  last.map Anchored.node

end Links

mutual

/-- Links a node; an alias must follow an anchor of its name. -/
def link? (l : Links) : Node → Option (Linked × Links)
  | .alias name => ((l.names.find? fun e => e.1 = name).map fun e => (.alias e.2, l.mark))
  | .scalar p plain cs =>
    let (l', number) := l.name p.anchor
    let node := .scalar p.tag plain cs
    some (node, (l'.keep number l.marks node).mark)
  | .sequence p items =>
    let (l', number) := l.name p.anchor
    match linkItems? l'.mark items with
    | some (items, l') =>
      let node := .sequence p.tag items
      some (node, (l'.keep number l.marks node).mark)
    | none => none
  | .mapping p entries =>
    let (l', number) := l.name p.anchor
    match linkEntries? l'.mark entries with
    | some (entries, l') =>
      let node := .mapping p.tag entries
      some (node, (l'.keep number l.marks node).mark)
    | none => none

/-- Links the items of a sequence. -/
def linkItems? (l : Links) : List Node → Option (List Linked × Links)
  | [] => some ([], l)
  | n :: ns =>
    match link? l n with
    | none => none
    | some (n, l) => (linkItems? l ns).map fun (ns, l) => (n :: ns, l)

/-- Links the entries of a mapping. -/
def linkEntries? (l : Links) : List (Node × Node) → Option (List (Linked × Linked) × Links)
  | [] => some ([], l)
  | (k, v) :: rest =>
    match link? l k with
    | none => none
    | some (k, l) =>
      match link? l v with
      | none => none
      | some (v, l) => (linkEntries? l rest).map fun (rest, l) => ((k, v) :: rest, l)

end

end MachineDriver.Yaml
