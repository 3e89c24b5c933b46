import MachineDriver.Text.Utf8
import MachineDriver.Yaml.Token

set_option autoImplicit false

/-!
# Nodes

The documents of a token stream as trees of nodes, in which aliases still stand for the nodes that
they name and scalars have not yet been given a meaning.
-/

namespace MachineDriver.Yaml

/-- The names that a node is given. -/
structure Properties where
  anchor : Option String := none
  tag : Option (List UInt8) := none
  deriving DecidableEq, Repr, Inhabited

/-- A node of a document. -/
inductive Node where
  | alias (name : String)
  | scalar (properties : Properties) (plain : Bool) (text : List Char)
  | sequence (properties : Properties) (items : List Node)
  | mapping (properties : Properties) (entries : List (Node × Node))
  deriving Repr, Inhabited

namespace Node

/-- The node that stands where nothing is written. -/
def empty : Node :=
  .scalar {} true []

/-! ## Properties -/

/-- Handles and the bytes that they stand for. -/
abbrev Handles := List (String × List UInt8)

/-- The handles that need not be declared, after those that were. -/
def allHandles (declared : Handles) : Handles :=
  declared ++ [("!", [0x21]), ("!!", Text.Utf8.encode "tag:yaml.org,2002:")]

/-- The bytes of a tag; one without a handle is complete. -/
def tagBytes? (handles : Handles) (handle : String) (suffix : List UInt8) : Option (List UInt8) :=
  if handle = "" then some suffix
  else ((allHandles handles).find? fun h => h.1 = handle).map fun h => h.2 ++ suffix

/-- Reads the anchor and the tag at the front of a node, in either order. -/
def readProperties? (handles : Handles) : List Token → Option (Properties × List Token)
  | .anchor a :: .tag h s :: ts => (tagBytes? handles h s).map fun t => (⟨some a, some t⟩, ts)
  | .tag h s :: .anchor a :: ts => (tagBytes? handles h s).map fun t => (⟨some a, some t⟩, ts)
  | .anchor a :: ts => some (⟨some a, none⟩, ts)
  | .tag h s :: ts => (tagBytes? handles h s).map fun t => (⟨none, some t⟩, ts)
  | ts => some ({}, ts)

/-! ## Trees -/

/-- Whether the next token is one of some. -/
def isAt (stops : List Token) (ts : List Token) : Bool :=
  ts.head?.any fun t => stops.contains t

/-- A node of which only the properties are written. -/
def bare? (p : Properties) (ts : List Token) : Option (Node × List Token) :=
  if p = {} then none else some (.scalar p true [], ts)

/-- What follows the comma that is due before an item that is not the first. -/
def afterComma? (stop : Token) (first : Bool) (ts : List Token) : Option (List Token) :=
  if first || isAt [stop] ts then some ts
  else
    match ts with
    | .flowEntry :: ts => some ts
    | _ => none

mutual

/-- Reads a node. Collections written by indentation may only stand where `block` says so, and items
without indentation of their own where `indentless` does. -/
def readNode (handles : Handles) :
    Nat → Bool → Bool → List Token → Option (Node × List Token)
  | 0, _, _, _ => none
  | fuel + 1, block, indentless, ts =>
    match ts with
    | .alias name :: ts => some (.alias name, ts)
    | ts =>
      match readProperties? handles ts with
      | none => none
      | some (p, rest) =>
        -- The items of a sequence under a key may stand as far left as the key.
        if indentless && isAt [.blockEntry] rest then
          (readIndentless handles fuel rest).map fun (items, ts) => (.sequence p items, ts)
        else
          match rest with
          | .scalar plain cs :: ts => some (.scalar p plain cs, ts)
          | .flowSequenceStart :: ts =>
            (readFlowItems handles fuel true ts).map fun (items, ts) => (.sequence p items, ts)
          | .flowMappingStart :: ts =>
            (readFlowEntries handles fuel true ts).map fun (es, ts) => (.mapping p es, ts)
          | .blockSequenceStart :: ts =>
            if block then
              (readItems handles fuel ts).map fun (items, ts) => (.sequence p items, ts)
            else bare? p rest
          | .blockMappingStart :: ts =>
            if block then
              (readEntries handles fuel ts).map fun (es, ts) => (.mapping p es, ts)
            else bare? p rest
          | rest => bare? p rest

/-- Reads a node, or the empty node where one of some tokens comes next. -/
def readOptional (handles : Handles) :
    Nat → List Token → Bool → Bool → List Token → Option (Node × List Token)
  | 0, _, _, _, _ => none
  | fuel + 1, stops, block, indentless, ts =>
    if isAt stops ts then some (empty, ts) else readNode handles fuel block indentless ts

/-- Reads the value that a colon comes before; without the colon it is the empty node. -/
def readValue (handles : Handles) :
    Nat → List Token → Bool → List Token → Option (Node × List Token)
  | 0, _, _, _ => none
  | fuel + 1, stops, block, ts =>
    match ts with
    | .value :: ts => readOptional handles fuel stops block block ts
    | ts => some (empty, ts)

/-- Reads the items of a sequence up to the end of its indentation. -/
def readItems (handles : Handles) : Nat → List Token → Option (List Node × List Token)
  | 0, _ => none
  | fuel + 1, ts =>
    match ts with
    | .blockEnd :: ts => some ([], ts)
    | .blockEntry :: ts =>
      match readOptional handles fuel [.blockEntry, .blockEnd] true false ts with
      | none => none
      | some (item, ts) =>
        (readItems handles fuel ts).map fun (items, ts) => (item :: items, ts)
    | _ => none

/-- Reads the items of a sequence that has no indentation of its own. -/
def readIndentless (handles : Handles) : Nat → List Token → Option (List Node × List Token)
  | 0, _ => none
  | fuel + 1, ts =>
    match ts with
    | .blockEntry :: ts =>
      match readOptional handles fuel [.blockEntry, .key, .value, .blockEnd] true false ts with
      | none => none
      | some (item, ts) =>
        (readIndentless handles fuel ts).map fun (items, ts) => (item :: items, ts)
    | ts => some ([], ts)

/-- Reads the entries of a mapping up to the end of its indentation. -/
def readEntries (handles : Handles) :
    Nat → List Token → Option (List (Node × Node) × List Token)
  | 0, _ => none
  | fuel + 1, ts =>
    match ts with
    | .blockEnd :: ts => some ([], ts)
    | .key :: ts =>
      match readOptional handles fuel [.key, .value, .blockEnd] true true ts with
      | none => none
      | some (k, ts) =>
        match readValue handles fuel [.key, .value, .blockEnd] true ts with
        | none => none
        | some (v, ts) =>
          (readEntries handles fuel ts).map fun (es, ts) => ((k, v) :: es, ts)
    | _ => none

/-- Reads the items of a sequence in brackets. An item may be a single entry of a mapping; where its
key is missing, the token in its place is passed over. -/
def readFlowItems (handles : Handles) :
    Nat → Bool → List Token → Option (List Node × List Token)
  | 0, _, _ => none
  | fuel + 1, first, ts =>
    match afterComma? .flowSequenceEnd first ts with
    | none => none
    | some (.flowSequenceEnd :: ts) => some ([], ts)
    | some (.key :: ts) =>
      let k :=
        if isAt [.value, .flowEntry, .flowSequenceEnd] ts then some (empty, ts.drop 1)
        else readNode handles fuel false false ts
      match k with
      | none => none
      | some (k, ts) =>
        match readValue handles fuel [.flowEntry, .flowSequenceEnd] false ts with
        | none => none
        | some (v, ts) =>
          (readFlowItems handles fuel false ts).map fun (items, ts) =>
            (.mapping {} [(k, v)] :: items, ts)
    | some ts =>
      match readNode handles fuel false false ts with
      | none => none
      | some (item, ts) =>
        (readFlowItems handles fuel false ts).map fun (items, ts) => (item :: items, ts)

/-- Reads the entries of a mapping in braces. -/
def readFlowEntries (handles : Handles) :
    Nat → Bool → List Token → Option (List (Node × Node) × List Token)
  | 0, _, _ => none
  | fuel + 1, first, ts =>
    match afterComma? .flowMappingEnd first ts with
    | none => none
    | some (.flowMappingEnd :: ts) => some ([], ts)
    | some (.key :: ts) =>
      match readOptional handles fuel [.value, .flowEntry, .flowMappingEnd] false false ts with
      | none => none
      | some (k, ts) =>
        match readValue handles fuel [.flowEntry, .flowMappingEnd] false ts with
        | none => none
        | some (v, ts) =>
          (readFlowEntries handles fuel false ts).map fun (es, ts) => ((k, v) :: es, ts)
    | some ts =>
      match readNode handles fuel false false ts with
      | none => none
      | some (k, ts) =>
        (readFlowEntries handles fuel false ts).map fun (es, ts) => ((k, empty) :: es, ts)

end
/-! ## Documents -/

/-- Reads the directives at the front of a document: at most one version, which must be 1.1 or 1.2,
and no handle twice. -/
def readDirectives? : Bool → Handles → List Token → Option (Handles × List Token)
  | versioned, handles, .version major minor :: ts =>
    if !versioned && major = 1 && (minor = 1 || minor = 2) then readDirectives? true handles ts
    else none
  | versioned, handles, .handle name stem :: ts =>
    if handles.any fun h => h.1 = name then none
    else readDirectives? versioned (handles ++ [(name, stem)]) ts
  | _, handles, ts => some (handles, ts)

/-- Whether a document ends, or has ended, before the given tokens. -/
def atDocumentEnd : List Token → Bool
  | [] => true
  | .version .. :: _ => true
  | .handle .. :: _ => true
  | .documentStart :: _ => true
  | .documentEnd :: _ => true
  | _ => false

/-- Whether a document begins with a directive or a mark before the given tokens. -/
def atDocumentStart : List Token → Bool
  | .version .. :: _ => true
  | .handle .. :: _ => true
  | .documentStart :: _ => true
  | _ => false

/-- Reads the contents of a document and the mark that may end it. -/
def readContents? (handles : Handles) (ts : List Token) : Option (Node × List Token) :=
  let read :=
    if atDocumentEnd ts then some (empty, ts)
    else readNode handles (4 * ts.length + 8) true false ts
  read.map fun (n, ts) =>
    match ts with
    | .documentEnd :: ts => (n, ts)
    | ts => (n, ts)

/-- Reads the documents of a stream. Only the first may begin without a mark; before the others,
marks that end a document are passed over. Each document but an empty first one takes a token. -/
def readDocuments? : Nat → Bool → List Token → Option (List Node)
  | 0, _, _ => none
  | fuel + 1, first, ts =>
    -- Marks that end a document count only once, so further ones mean nothing.
    let ts := if first then ts else ts.dropWhile (· = .documentEnd)
    if ts.isEmpty then some []
    else
      let document :=
        if first && !atDocumentStart ts then
          if isAt [.documentEnd] ts then none else readContents? [] ts
        else
          match readDirectives? false [] ts with
          | some (handles, .documentStart :: ts) => readContents? handles ts
          | _ => none
      match document with
      | none => none
      | some (n, ts) => (readDocuments? fuel false ts).map (n :: ·)

/-- The documents of a token stream. -/
def ofTokens? (ts : List Token) : Option (List Node) :=
  readDocuments? (ts.length + 2) true ts

end Node

end MachineDriver.Yaml
