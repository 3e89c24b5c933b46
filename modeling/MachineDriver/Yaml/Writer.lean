import MachineDriver.Number.Shortest
import MachineDriver.Text.Utf8
import MachineDriver.Yaml.Style

set_option autoImplicit false

/-!
# Writing YAML

Values as texts. Collections are written by indentation, two columns a step, and only empty ones in
brackets; the items of a sequence that is the value of a simple key are not indented.
-/

namespace MachineDriver.Yaml

/-! ## Tags -/

/-- A byte that stands for itself in a tag. -/
def isTagByte (b : UInt8) : Bool :=
  let c := Char.ofNat b.toNat
  isNameChar c || ";/?:@&=+$,.~*\x27()[]".toList.contains c

/-- Bytes as they are written in a tag. -/
def tagBytesText (bytes : List UInt8) : List Char :=
  bytes.flatMap fun b =>
    if isTagByte b then [Char.ofNat b.toNat] else '%' :: hexDigits 2 b.toNat

/-- A tag with its mark; a tag that begins with a mark keeps it. -/
def markedTag (tag : String) : List Char :=
  match (bareTag tag).toList with
  | '!' :: cs => '!' :: cs
  | cs => '!' :: cs

/-- A tag as it is written before a value. -/
def tagText (tag : String) : List Char :=
  match markedTag tag with
  | ['!'] => "!<%21>".toList
  | '!' :: cs => '!' :: tagBytesText (Text.Utf8.encodeChars cs)
  | cs => cs

/-! ## Lines -/

/-- The break that ends a text, unless it ends with one. -/
def lineEnd (cs : List Char) : List Char :=
  if cs.getLast?.any isBreak then [] else ['\n']

/-- Texts, of which each begins a line at a column; the first line has begun. -/
def joinLines (column : Nat) : List (List Char) → List Char
  | [] => []
  | [l] => l
  | l :: ls => l ++ lineEnd l ++ spaces column ++ joinLines column ls

/-- Where a value is written. -/
structure Place where
  /-- The column of the collection around it, if there is one. -/
  column : Option Nat
  /-- Whether a collection can begin on the same line. -/
  compact : Bool
  /-- Whether the collection around it is a mapping. -/
  inMapping : Bool

namespace Place

/-- The start of a document. -/
def start : Place :=
  ⟨none, true, false⟩

/-- The item of a sequence at a column. -/
def item (column : Nat) : Place :=
  ⟨some column, true, false⟩

/-- The key or value of a mapping at a column, after a mark that begins a line. -/
def explicit (column : Nat) : Place :=
  ⟨some column, true, true⟩

/-- The value of a simple key of a mapping at a column. -/
def value (column : Nat) : Place :=
  ⟨some column, false, true⟩

/-- The blank before what is written. -/
def blank (p : Place) : List Char :=
  if p.column.isSome then [' '] else []

/-- The column of what is indented one step further. -/
def deeper (p : Place) : Nat :=
  match p.column with
  | some n => n + 2
  | none => 0

/-- The column of the further lines of a scalar. -/
def scalarColumn (p : Place) : Nat :=
  match p.column with
  | some n => n + 2
  | none => 2

/-- Whether a collection begins on the same line. -/
def continues (p : Place) (tag : Option String) : Bool :=
  p.compact && tag.isNone

/-- The column of the items of a sequence. -/
def sequenceColumn (p : Place) (tag : Option String) : Nat :=
  match p.column with
  | some n => if p.inMapping && !p.continues tag then n else n + 2
  | none => 0

/-- A tag with the blank before it. -/
def tagged (p : Place) : Option String → List Char
  | some t => p.blank ++ tagText t
  | none => []

/-- What is written before a word: the tag, if there is one, and a blank. -/
def beforeWord (p : Place) (tag : Option String) : List Char :=
  match tag with
  | some _ => p.tagged tag ++ [' ']
  | none => p.blank

/-- What is written before the first line of a collection at a column. -/
def beforeLines (p : Place) (tag : Option String) (column : Nat) : List Char :=
  if p.continues tag then p.blank else p.tagged tag ++ '\n' :: spaces column

end Place

/-! ## Values -/

/-- The word of a value that is neither a text nor a collection. -/
def word : Yaml → List Char
  | .bool true => "true".toList
  | .bool false => "false".toList
  | .integer n => if n < 0 then '-' :: Text.decimal n.natAbs else Text.decimal n.natAbs
  | .decimal (.finite s m e) => Binary64.finiteText s m e
  | .decimal (.infinite false) => ".inf".toList
  | .decimal (.infinite true) => "-.inf".toList
  | .decimal .nan => ".nan".toList
  | _ => "null".toList

/-- The text of a key that fits on a line before its value, if it does: of a scalar of one line, or
an empty collection, with 128 bytes at most. -/
def simpleKey? : Option String → Yaml → Option (List Char)
  | _, .tagged t v => simpleKey? (some t) v
  | tag, v =>
    let tagSize := match tag with
      | some t => (Text.Utf8.encodeChars (markedTag t)).length
      | none => 0
    let front := match tag with
      | some t => tagText t ++ [' ']
      | none => []
    let short (size : Nat) (written : List Char) : Option (List Char) :=
      if tagSize + size ≤ 128 then some (front ++ written) else none
    match v with
    | .text s =>
      if isMultiline s.toList then none
      else short (Text.Utf8.encode s).length (scalarText 0 s.toList)
    | .sequence [] => short 0 "[]".toList
    | .mapping [] => short 0 "\x7b\x7d".toList
    | .sequence _ => none
    | .mapping _ => none
    | v => short (word v).length (word v)

mutual

/-- A value at a place, with a tag if it has one. -/
def textAt (p : Place) (tag : Option String) : Yaml → List Char
  | .tagged t v => textAt p (some t) v
  | .text s => p.beforeWord tag ++ scalarText p.scalarColumn s.toList
  | .sequence [] => p.beforeWord tag ++ "[]".toList
  | .sequence (v :: vs) =>
    let column := p.sequenceColumn tag
    p.beforeLines tag column ++ joinLines column (itemLines column (v :: vs))
  | .mapping [] => p.beforeWord tag ++ "\x7b\x7d".toList
  | .mapping (e :: es) =>
    p.beforeLines tag p.deeper ++ joinLines p.deeper (entryLines p.deeper (e :: es))
  | v => p.beforeWord tag ++ word v

/-- The items of a sequence at a column. -/
def itemLines (column : Nat) : List Yaml → List (List Char)
  | [] => []
  | v :: vs => ('-' :: textAt (.item column) none v) :: itemLines column vs

/-- The entries of a mapping at a column. A key that is not simple is written on lines of its own
after a question mark. -/
def entryLines (column : Nat) : List (Yaml × Yaml) → List (List Char)
  | [] => []
  | (k, v) :: es =>
    let entry :=
      match simpleKey? none k with
      | some key => key ++ ':' :: textAt (.value column) none v
      | none =>
        let key := '?' :: textAt (.explicit column) none k
        key ++ lineEnd key ++ spaces column ++ ':' :: textAt (.explicit column) none v
    entry :: entryLines column es

end

/-- A value as a document. -/
def toText (v : Yaml) : String :=
  let cs := textAt .start none v
  String.ofList (cs ++ lineEnd cs)

/-! ## Values that cannot be written -/

/-- Whether a key would be taken for the tag of its value: it has a tag, or is itself a mapping with
one entry. -/
def looksLikeTag : Yaml → Bool
  | .tagged .. => true
  | .mapping [_] => true
  | _ => false

mutual

/-- Whether a value can be written. A mapping with one entry is how a value with a tag is told, so
its key must not look like a tag too, unless the mapping itself has a tag. -/
def isWritable (isTagged : Bool) : Yaml → Bool
  | .tagged _ v => isWritable true v
  | .sequence vs => areWritable vs
  | .mapping [(k, v)] =>
    (isTagged || !looksLikeTag k) && isWritable false k && isWritable false v
  | .mapping es => entriesAreWritable es
  | _ => true

/-- Whether all items of a sequence can be written. -/
def areWritable : List Yaml → Bool
  | [] => true
  | v :: vs => isWritable false v && areWritable vs

/-- Whether all keys and values of a mapping can be written. -/
def entriesAreWritable : List (Yaml × Yaml) → Bool
  | [] => true
  | (k, v) :: es => isWritable false k && isWritable false v && entriesAreWritable es

end

/-- How it is reported that a value cannot be written. -/
def unwritable : String := "expected SCALAR, SEQUENCE-START, MAPPING-START, or ALIAS"

/-- A value as a document, if it can be written. -/
def write (v : Yaml) : Except String String :=
  if v.isWritable false then .ok v.toText else .error unwritable

theorem write_of_isWritable {v : Yaml} (h : v.isWritable false = true) : v.write = .ok v.toText :=
  if_pos h

theorem isWritable_mapping {es : List (Yaml × Yaml)}
    (h : ∀ k v, es = [(k, v)] → looksLikeTag k = false) :
    isWritable false (.mapping es) = entriesAreWritable es := by
  match es with
  | [] => rfl
  | [(k, v)] => simp [isWritable, entriesAreWritable, h k v rfl]
  | _ :: _ :: _ => rfl

theorem entriesAreWritable_of_forall {es : List (Yaml × Yaml)}
    (h : ∀ e ∈ es, isWritable false e.1 = true ∧ isWritable false e.2 = true) :
    entriesAreWritable es = true := by
  induction es with
  | nil => rfl
  | cons e es ih =>
    obtain ⟨⟨hkey, hvalue⟩, hrest⟩ := List.forall_mem_cons.mp h
    simp [entriesAreWritable, hkey, hvalue, ih hrest]

/-- A mapping of texts can be written if its values can. -/
theorem isWritable_mapping_texts {es : List (String × Yaml)}
    (h : ∀ e ∈ es, isWritable false e.2 = true) :
    isWritable false (.mapping (es.map fun e => (.text e.1, e.2))) = true := by
  rw [isWritable_mapping fun k v hsingle => ?_]
  · exact entriesAreWritable_of_forall (List.forall_mem_map.mpr fun e he => ⟨rfl, h e he⟩)
  · obtain ⟨e, -, hentry⟩ := List.map_eq_singleton_iff.mp hsingle
    cases hentry
    rfl

end MachineDriver.Yaml
