import MachineDriver.Yaml.Link
import MachineDriver.Yaml.Plain
import MachineDriver.Yaml.Token.Stream

set_option autoImplicit false

/-!
# Documents

Reading a text as YAML values. Collections may be nested 128 deep, aliases may be followed a hundred
times for each mark of the document, and no key may be repeated in a mapping.
-/

namespace MachineDriver.Yaml

/-! ## Tags -/

/-- The bytes of a tag that YAML itself defines. -/
def coreTag (name : String) : List UInt8 :=
  Text.Utf8.encode ("tag:yaml.org,2002:" ++ name)

/-- The text of a tag that an application defines, without its mark; a mark alone is a tag. -/
def ownTag? : Option (List UInt8) → Option String
  | some (0x21 :: bytes) =>
    match Text.Utf8.decode (if bytes.isEmpty then [0x21] else bytes) with
    | .ok s => some s
    | .error _ => none
  | _ => none

/-- What a scalar means. A tag of YAML's own demands a kind of value, and any other such tag makes
it a text. -/
def ofScalar? (tag : Option (List UInt8)) (plain : Bool) (cs : List Char) : Option Yaml :=
  let text := Yaml.text (String.ofList cs)
  match tag with
  | none => if plain then ofPlain? cs else some text
  | some bytes =>
    if bytes = coreTag "bool" then (boolOfWord? cs).map .bool
    else if bytes = coreTag "int" then
      match readInteger cs with
      | .value n => some (.integer n)
      | _ => none
    else if bytes = coreTag "float" then (readFloat? cs).map .decimal
    else if bytes = coreTag "null" then if isNullWord cs then some .null else none
    else if plain && bytes.head? = some 0x21 then ofPlain? cs
    else some text

/-! ## Nodes -/

/-- Reading the value of a node, given how often an alias was followed before; the result has the
number afterwards. The flag says to pass over a tag of the node's own. -/
abbrev NodeReader := Bool → Linked → Nat → Option (Yaml × Nat)

/-- Reads the items of a sequence. -/
def readItems? (child : NodeReader) : List Linked → Nat → Option (List Yaml × Nat)
  | [], followed => some ([], followed)
  | n :: ns, followed =>
    match child false n followed with
    | none => none
    | some (v, followed) =>
      (readItems? child ns followed).map fun (vs, followed) => (v :: vs, followed)

/-- Reads the entries of a mapping, after those already read, last first. -/
def readEntries? (child : NodeReader) (tagless : Bool) :
    List (Yaml × Yaml) → List (Linked × Linked) → Nat → Option (List (Yaml × Yaml) × Nat)
  | seen, [], followed => some (seen.reverse, followed)
  | seen, (k, v) :: rest, followed =>
    match child tagless k followed with
    | none => none
    | some (k, followed) =>
      -- The key is compared before its value is read.
      if seen.any fun e => same e.1 k then none
      else
        match child false v followed with
        | none => none
        | some (v, followed) => readEntries? child tagless ((k, v) :: seen) rest followed

/-- Reads a node that is no alias. Without a reader for children it may be no collection. The keys
of a mapping whose tag counts have no tags that count. -/
def readBody? (child : Option NodeReader) (tagless : Bool) (n : Linked) (followed : Nat) :
    Option (Yaml × Nat) :=
  let wrap (tag : Option (List UInt8)) (v : Yaml) : Yaml :=
    match tagless, ownTag? tag with
    | false, some t => .tagged t v
    | _, _ => v
  match n, child with
  | .alias _, _ => none
  | .scalar tag plain cs, _ => (ofScalar? tag plain cs).map fun v => (wrap tag v, followed)
  | .sequence .., none => none
  | .mapping .., none => none
  | .sequence tag items, some child =>
    (readItems? child items followed).map fun (vs, followed) => (wrap tag (.sequence vs), followed)
  | .mapping tag entries, some child =>
    (readEntries? child (tagless || (ownTag? tag).isSome) [] entries followed).map
      fun (es, followed) => (wrap tag (.mapping es), followed)

/-- Reads a node or the node that an alias stands for. -/
def follow? (links : Links) (child : Option NodeReader) : NodeReader
  | tagless, n, followed =>
    match n with
    | .alias number =>
      -- The bound keeps a short text from standing for a very large value.
      if links.marks * 100 ≤ followed then none
      else
        match links.target? number with
        | some n => readBody? child false n (followed + 1)
        | none => none
    | n => readBody? child tagless n followed

/-- Reads a node in which collections are nested to at most a depth. -/
def readDepth? (links : Links) : Nat → NodeReader
  | 0 => follow? links none
  | depth + 1 => follow? links (some (readDepth? links depth))

/-- The value of a document. -/
def ofNode? (n : Node) : Option Yaml :=
  match link? {} n with
  | none => none
  | some (n, links) => (readDepth? links 128 false n 0).map Prod.fst

/-! ## Texts -/

/-- The values of all items, if each has one. -/
def allOfNodes? : List Node → Option (List Yaml)
  | [] => some []
  | n :: ns =>
    match ofNode? n with
    | none => none
    | some v => (allOfNodes? ns).map (v :: ·)

/-- The documents of a text. -/
def nodes? (s : String) : Option (List Node) :=
  (tokens? s.toList).bind Node.ofTokens?

/-- The values of the documents of a text; a text without documents means null. -/
def documents? (s : String) : Option (List Yaml) :=
  match nodes? s with
  | none => none
  | some [] => some [.null]
  | some ns => allOfNodes? ns

/-- The value of a text that is one document, or none, which means null. -/
def ofText? (s : String) : Option Yaml :=
  match documents? s with
  | some [v] => some v
  | _ => none

end MachineDriver.Yaml
