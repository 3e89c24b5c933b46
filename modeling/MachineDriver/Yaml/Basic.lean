import MachineDriver.Number.Binary64

set_option autoImplicit false

/-!
# YAML values

What a document means once aliases are replaced and plain scalars are read. The entries of a mapping
keep their order, which does not count when values are compared.
-/

namespace MachineDriver

/-- A YAML value. -/
inductive Yaml where
  | null
  | bool (b : Bool)
  | integer (n : Int)
  | decimal (x : Binary64)
  | text (s : String)
  | sequence (items : List Yaml)
  | mapping (entries : List (Yaml × Yaml))
  /-- A value with a tag of its own, which is kept without its mark. -/
  | tagged (tag : String) (value : Yaml)
  deriving Repr, Inhabited

namespace Yaml

/-- A tag without a mark at its front; a mark alone is a tag. -/
def bareTag (tag : String) : String :=
  match tag.toList with
  | '!' :: c :: cs => String.ofList (c :: cs)
  | _ => tag

/-- Whether two numbers of binary floating point count as the same. -/
def sameDecimal : Binary64 → Binary64 → Bool
  | .finite s m e, .finite s' m' e' => m = m' && e = e' && (s = s' || m = 0)
  | x, y => x = y

mutual

/-- Whether two values are the same. -/
def same : Yaml → Yaml → Bool
  | .null, .null => true
  | .bool a, .bool b => a = b
  | .integer a, .integer b => a = b
  | .decimal a, .decimal b => sameDecimal a b
  | .text a, .text b => a = b
  | .sequence a, .sequence b => sameItems a b
  | .mapping a, .mapping b => a.length = b.length && sameEntries a b
  | .tagged t a, .tagged u b => bareTag t = bareTag u && same a b
  | _, _ => false

/-- Whether two lists of values are the same. -/
def sameItems : List Yaml → List Yaml → Bool
  | [], [] => true
  | a :: as, b :: bs => same a b && sameItems as bs
  | _, _ => false

/-- Whether each of some entries is among others. -/
def sameEntries : List (Yaml × Yaml) → List (Yaml × Yaml) → Bool
  | [], _ => true
  | (k, v) :: rest, es => (es.any fun e => same k e.1 && same v e.2) && sameEntries rest es

end

mutual

/-- Whether two values are equal, to which the order of entries counts. -/
def decEq (v w : Yaml) : Decidable (v = w) :=
  if h : v.ctorIdx = w.ctorIdx then
    match v, w, h with
    | .null, .null, _ => isTrue rfl
    | .bool a, .bool b, _ => decidable_of_iff (a = b) (by simp)
    | .integer a, .integer b, _ => decidable_of_iff (a = b) (by simp)
    | .decimal a, .decimal b, _ => decidable_of_iff (a = b) (by simp)
    | .text a, .text b, _ => decidable_of_iff (a = b) (by simp)
    | .sequence a, .sequence b, _ =>
      have := decEqItems a b
      decidable_of_iff (a = b) (by simp)
    | .mapping a, .mapping b, _ =>
      have := decEqEntries a b
      decidable_of_iff (a = b) (by simp)
    | .tagged t a, .tagged u b, _ =>
      have := decEq a b
      decidable_of_iff (t = u ∧ a = b) (by simp)
  else isFalse fun heq => h (congrArg Yaml.ctorIdx heq)

/-- Whether two lists of values are equal. -/
def decEqItems : (vs ws : List Yaml) → Decidable (vs = ws)
  | [], [] => isTrue rfl
  | [], _ :: _ => isFalse nofun
  | _ :: _, [] => isFalse nofun
  | v :: vs, w :: ws =>
    have := decEq v w
    have := decEqItems vs ws
    decidable_of_iff (v = w ∧ vs = ws) (by simp)

/-- Whether two lists of entries are equal. -/
def decEqEntries : (es fs : List (Yaml × Yaml)) → Decidable (es = fs)
  | [], [] => isTrue rfl
  | [], _ :: _ => isFalse nofun
  | _ :: _, [] => isFalse nofun
  | (k, v) :: es, (l, w) :: fs =>
    have := decEq k l
    have := decEq v w
    have := decEqEntries es fs
    decidable_of_iff ((k = l ∧ v = w) ∧ es = fs) (by simp)

end

instance : DecidableEq Yaml :=
  decEq

/-- Whether a value is null, whatever tag it has. -/
def isNull : Yaml → Bool
  | .null => true
  | .tagged _ v => v.isNull
  | _ => false

/-- The value of a text among the keys of a mapping. -/
def find? (name : String) : List (Yaml × Yaml) → Option Yaml
  | [] => none
  | (k, v) :: rest =>
    match k with
    | .text s => if s = name then some v else find? name rest
    | _ => find? name rest

/-- A mapping in which a text has a value: an entry that it has is changed in its place, and a new
one comes last. -/
def put (name : String) (value : Yaml) : List (Yaml × Yaml) → List (Yaml × Yaml)
  | [] => [(.text name, value)]
  | (k, v) :: rest =>
    match k with
    | .text s => if s = name then (k, value) :: rest else (k, v) :: put name value rest
    | _ => (k, v) :: put name value rest

end Yaml

end MachineDriver
