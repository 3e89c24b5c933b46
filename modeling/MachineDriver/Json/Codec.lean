import MachineDriver.Json.Basic
import MachineDriver.Text.Base64
import MachineDriver.TextMap

set_option autoImplicit false

/-!
# Codecs

How values of a type are read from documents and written as documents. A codec is *lossless* when
reading what was written gives the value back. Records come in two kinds: a *strict* record may also
be given as an array of its fields in order, and no field may be repeated; in an *open* record the
last of repeated fields counts, and an array is no record. Both pass over fields of unknown names.
-/

namespace MachineDriver.Json

/-- How values of a type are read and written. -/
structure Codec (α : Type) where
  read : Json → Except Error α
  write : α → Json

/-- Reading what was written gives the value back. -/
def Codec.Lossless {α : Type} (c : Codec α) : Prop :=
  ∀ v, c.read (c.write v) = .ok v

/-! ## Plain values -/

namespace Codec

variable {α : Type}

/-- Texts. -/
def text : Codec String where
  read
    | .string s => .ok s
    | j => .error (unexpected j)
  write := .string

/-- Truth values. -/
def bool : Codec Bool where
  read
    | .bool b => .ok b
    | j => .error (unexpected j)
  write := .bool

/-- Numbers of 32 bits without sign. -/
def uint32 : Codec UInt32 where
  read
    | .number (.integer n) =>
      if 0 ≤ n ∧ n < 4294967296 then .ok (UInt32.ofNat n.toNat) else .error .mismatch
    | j => .error (unexpected j)
  write n := ofInt n.toNat

/-- Numbers of 16 bits without sign. -/
def uint16 : Codec UInt16 where
  read
    | .number (.integer n) =>
      if 0 ≤ n ∧ n < 65536 then .ok (UInt16.ofNat n.toNat) else .error .mismatch
    | j => .error (unexpected j)
  write n := ofInt n.toNat

/-- Numbers of 32 bits with a sign. -/
def int32 : Codec Int32 where
  read
    | .number (.integer n) =>
      if -2147483648 ≤ n ∧ n < 2147483648 then .ok (Int32.ofInt n) else .error .mismatch
    | j => .error (unexpected j)
  write n := ofInt n.toInt

/-- Numbers of 64 bits with a sign. -/
def int64 : Codec Int64 where
  read
    | .number (.integer n) =>
      if -9223372036854775808 ≤ n ∧ n < 9223372036854775808 then .ok (Int64.ofInt n)
      else .error .mismatch
    | j => .error (unexpected j)
  write n := ofInt n.toInt

/-- Byte strings, written in base64; null stands for the empty one. -/
def bytes : Codec (List UInt8) where
  read
    | .string s =>
      match Text.Base64.decode? s with
      | some bytes => .ok bytes
      | none => .error .mismatch
    | .null => .ok []
    | j => .error (unexpected j)
  write b := .string (Text.Base64.encode b)

/-- Any document. -/
def any : Codec Json where
  read := readAny
  write j := j

/-! ## Lists and maps -/

/-- The items of an array, each read by one reader. -/
def readItems (read : Json → Except Error α) : List Json → Except Error (List α)
  | [] => .ok []
  | j :: rest =>
    match read j with
    | .ok v =>
      match readItems read rest with
      | .ok vs => .ok (v :: vs)
      | .error e => .error e
    | .error e => .error e

/-- Lists, written as arrays. -/
def list (c : Codec α) : Codec (List α) where
  read
    | .array items => readItems c.read items
    | j => .error (unexpected j)
  write vs := .array (vs.map c.write)

/-- The fields of an object put into a map, each value read by one reader. -/
def readEntries (read : Json → Except Error α) :
    TextMap α → List (String × Json) → Except Error (TextMap α)
  | m, [] => .ok m
  | m, (k, j) :: rest =>
    match read j with
    | .ok v => readEntries read (m.insert k v) rest
    | .error e => .error e

/-- Maps from texts, written as objects. -/
def map (c : Codec α) : Codec (TextMap α) where
  read
    | .object fields => readEntries c.read TextMap.empty fields
    | j => .error (unexpected j)
  write m := .object (m.entries.map fun e => (e.1, c.write e.2))

end Codec

/-! ## Fields -/

/-- A field of a record: its name, how its value is read, the value it has when it is absent, and
its written form, which may be nothing. -/
structure Field (α : Type) where
  name : String
  read : Json → Except Error α
  absent : Option α
  write : α → Option Json

namespace Field

variable {α : Type}

/-- A field that must be present. -/
def required (name : String) (c : Codec α) : Field α where
  name := name
  read := c.read
  absent := none
  write v := some (c.write v)

/-- A field that has a default when it is absent, and is always written. -/
def defaulted (name : String) (c : Codec α) (default : α) : Field α where
  name := name
  read := c.read
  absent := some default
  write v := some (c.write v)

/-- A field that may be absent or null, and is written when it has a value. -/
def optional (name : String) (c : Codec α) : Field (Option α) where
  name := name
  read
    | .null => .ok none
    | j =>
      match c.read j with
      | .ok v => .ok (some v)
      | .error e => .error e
  absent := some none
  write v := v.map c.write

/-- A field that has a default when it is absent or null, and is always written. -/
def lenient (name : String) (c : Codec α) (default : α) : Field α where
  name := name
  read
    | .null => .ok default
    | j => c.read j
  absent := some default
  write v := some (c.write v)

/-- A list that is empty when it is absent, and is written unless it is empty. -/
def many (name : String) (c : Codec α) : Field (List α) where
  name := name
  read := (Codec.list c).read
  absent := some []
  write v := if v.isEmpty then none else some ((Codec.list c).write v)

/-- A map that is empty when it is absent, and is written unless it is empty. -/
def mapping (name : String) (c : Codec α) : Field (TextMap α) where
  name := name
  read := (Codec.map c).read
  absent := some TextMap.empty
  write v := if v.isEmpty then none else some ((Codec.map c).write v)

/-- A flag that is off when it is absent, and is written when it is on. -/
def flag (name : String) : Field Bool where
  name := name
  read := Codec.bool.read
  absent := some false
  write v := if v then some (.bool true) else none

/-- A field that must have one text if it is present, and is always written. -/
def fixed (name : String) (value : String) : Field Unit where
  name := name
  read
    | .string s => if s = value then .ok () else .error .mismatch
    | j => .error (unexpected j)
  absent := some ()
  write _ := some (.string value)

end Field

/-- The fields of a record in their order, with the type of their values together, and the type of
the values that have been read so far. -/
inductive Fields : Type → Type → Type 1 where
  | nil : Fields Unit Unit
  | cons {α β σ : Type} (first : Field α) (rest : Fields β σ) : Fields (α × β) (Option α × σ)

namespace Fields

/-- No field read. -/
def noSlots : {τ σ : Type} → Fields τ σ → σ
  | _, _, .nil => ()
  | _, _, .cons _ rest => (none, rest.noSlots)

/-- The names of the fields. -/
def names : {τ σ : Type} → Fields τ σ → List String
  | _, _, .nil => []
  | _, _, .cons f rest => f.name :: rest.names

/-- Reads the value of one name into the slot of its field. A second value for a field is an error
unless repeats are allowed; a value of an unknown name is passed over. -/
def put (repeats : Bool) : {τ σ : Type} → Fields τ σ → σ → String → Json → Except Error σ
  | _, _, .nil, slots, _, j =>
    match skip j with
    | .ok () => .ok slots
    | .error e => .error e
  | _, _, .cons f rest, (slot, slots), name, j =>
    if name = f.name then
      if slot.isSome && !repeats then .error .mismatch
      else
        match f.read j with
        | .ok v => .ok (some v, slots)
        | .error e => .error e
    else
      match rest.put repeats slots name j with
      | .ok slots => .ok (slot, slots)
      | .error e => .error e

/-- Reads the values of an object into the slots, in the order in which they are written. -/
def fill (repeats : Bool) {τ σ : Type} (fs : Fields τ σ) :
    σ → List (String × Json) → Except Error σ
  | slots, [] => .ok slots
  | slots, (name, j) :: rest =>
    match fs.put repeats slots name j with
    | .ok slots => fs.fill repeats slots rest
    | .error e => .error e

/-- The values of all fields, the missing ones taken from their defaults. -/
def complete : {τ σ : Type} → Fields τ σ → σ → Except Error τ
  | _, _, .nil, () => .ok ()
  | _, _, .cons f rest, (slot, slots) =>
    match slot.orElse (fun _ => f.absent) with
    | none => .error .mismatch
    | some v =>
      match rest.complete slots with
      | .ok vs => .ok (v, vs)
      | .error e => .error e

/-- The values of all fields given by their places. An item past the last field is malformed. -/
def readPositional : {τ σ : Type} → Fields τ σ → List Json → Except Error τ
  | _, _, .nil, [] => .ok ()
  | _, _, .nil, _ :: _ => .error .malformed
  | _, _, .cons f rest, [] =>
    match f.absent with
    | none => .error .mismatch
    | some v =>
      match rest.readPositional [] with
      | .ok vs => .ok (v, vs)
      | .error e => .error e
  | _, _, .cons f rest, j :: js =>
    match f.read j with
    | .ok v =>
      match rest.readPositional js with
      | .ok vs => .ok (v, vs)
      | .error e => .error e
    | .error e => .error e

/-- The written fields of a record. -/
def write : {τ σ : Type} → Fields τ σ → τ → List (String × Json)
  | _, _, .nil, () => []
  | _, _, .cons f rest, (v, vs) =>
    match f.write v with
    | some j => (f.name, j) :: rest.write vs
    | none => rest.write vs

end Fields

/-! ## Records -/

/-- A record: its fields, and how a value is built from and taken apart into theirs. -/
structure Record (α τ σ : Type) where
  fields : Fields τ σ
  ofFields : τ → α
  toFields : α → τ

namespace Record

variable {α τ σ : Type}

/-- The value of an object's fields. -/
def readObject (repeats : Bool) (r : Record α τ σ) (fields : List (String × Json)) :
    Except Error α :=
  match r.fields.fill repeats r.fields.noSlots fields with
  | .ok slots =>
    match r.fields.complete slots with
    | .ok vs => .ok (r.ofFields vs)
    | .error e => .error e
  | .error e => .error e

/-- A record that may be given as an array, and repeats no field. Texts in `stamps` are written
before the fields and not read. -/
def strict (r : Record α τ σ) (stamps : List (String × String)) : Codec α where
  read
    | .object fields => r.readObject false fields
    | .array items =>
      match r.fields.readPositional items with
      | .ok vs => .ok (r.ofFields vs)
      | .error e => .error e
    | j => .error (unexpected j)
  write v := .object (stamps.map (fun s => (s.1, .string s.2)) ++ r.fields.write (r.toFields v))

/-- A record of which the last of repeated fields counts, and which is never an array. -/
def opened (r : Record α τ σ) : Codec α where
  read
    | .object fields => r.readObject true fields
    | j => .error (unexpected j)
  write v := .object (r.fields.write (r.toFields v))

end Record

end MachineDriver.Json
