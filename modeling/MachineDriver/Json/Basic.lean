import MachineDriver.Number.Power

set_option autoImplicit false

/-!
# JSON documents

A document is a tree. Objects keep their fields in the order in which they are written, repeated
names included, since a reader may tell documents apart by either. A tree that was read from a text
may end in a `fault`: the place where the text stops being JSON. Documents that are built hold none.
-/

namespace MachineDriver

/-- A JSON number: an integer of at most 64 bits, or any other number by its sign, its digits and
the power of ten that they are multiplied by. Minus zero is of the second kind. -/
inductive Json.Number where
  | integer (n : Int)
  | decimal (negative : Bool) (digits : Nat) (exponent : Int)
  deriving DecidableEq, Repr, Inhabited

/-- A JSON document. -/
inductive Json where
  | null
  | bool (b : Bool)
  | number (n : Json.Number)
  | string (s : String)
  | array (items : List Json)
  | object (fields : List (String × Json))
  /-- A place where a text is no JSON; a reader that does not look at a skippable one passes it. -/
  | fault (skippable : Bool)
  deriving Repr, Inhabited

namespace Json

/-- Why a document is not read as a value. -/
inductive Error where
  /-- The text is no JSON where the reader looked at it. -/
  | malformed
  /-- The document is JSON of another shape. -/
  | mismatch
  deriving DecidableEq, Repr, Inhabited

/-- A number written without fraction. -/
def ofInt (n : Int) : Json :=
  .number (.integer n)

/-- The first value of a name among fields. -/
def find? (name : String) : List (String × Json) → Option Json
  | [] => none
  | (k, v) :: rest => if k = name then some v else find? name rest

/-- The value of a name in an object. -/
def get? (j : Json) (name : String) : Option Json :=
  match j with
  | .object fields => find? name fields
  | _ => none

/-- Whether a number lies outside the range of binary floating point, so that no reader takes it.
The bound is the least value that rounds to infinity. -/
def Number.isOverflow : Number → Bool
  | .integer _ => false
  | .decimal _ digits exponent =>
    let bound := twoTo 1024 - twoTo 970
    if digits = 0 then false
    else if 0 ≤ exponent then
      if 400 < exponent then true else bound ≤ digits * tenTo exponent
    else if digits.log2 < (-exponent).toNat then false
    else bound * tenTo (-exponent) ≤ digits

mutual

/-- Passes over a document without reading it: only a fault that cannot be skipped stops it. -/
def skip : Json → Except Error Unit
  | .fault false => .error .malformed
  | .array items => skipItems items
  | .object fields => skipFields fields
  | _ => .ok ()

/-- Passes over the items of an array. -/
def skipItems : List Json → Except Error Unit
  | [] => .ok ()
  | j :: rest =>
    match skip j with
    | .ok () => skipItems rest
    | .error e => .error e

/-- Passes over the fields of an object. -/
def skipFields : List (String × Json) → Except Error Unit
  | [] => .ok ()
  | (_, j) :: rest =>
    match skip j with
    | .ok () => skipFields rest
    | .error e => .error e

end

/-- The error of a reader that wants another kind of value: a document that cannot be read at all is
malformed, any other has the wrong shape. -/
def unexpected : Json → Error
  | .fault _ => .malformed
  | .number n => if n.isOverflow then .malformed else .mismatch
  | _ => .mismatch

mutual

/-- A document read as any value: of the fields of an object with one name the last counts, and the
fields are ordered by name. -/
def readAny : Json → Except Error Json
  | .fault _ => .error .malformed
  | .number n => if n.isOverflow then .error .malformed else .ok (.number n)
  | .array items =>
    match readAnyItems items with
    | .ok items => .ok (.array items)
    | .error e => .error e
  | .object fields =>
    match readAnyFields fields with
    | .ok fields => .ok (.object fields)
    | .error e => .error e
  | j => .ok j

/-- The items of an array, each read as any value. -/
def readAnyItems : List Json → Except Error (List Json)
  | [] => .ok []
  | j :: rest =>
    match readAny j with
    | .ok j =>
      match readAnyItems rest with
      | .ok rest => .ok (j :: rest)
      | .error e => .error e
    | .error e => .error e

/-- The fields of an object, each read as any value. -/
def readAnyFields : List (String × Json) → Except Error (List (String × Json))
  | [] => .ok []
  | (k, j) :: rest =>
    match readAny j with
    | .ok j =>
      match readAnyFields rest with
      | .ok rest =>
        .ok (if rest.any (fun f => f.1 = k) then rest else insertByName k j rest)
      | .error e => .error e
    | .error e => .error e
where
  /-- A field put before the first field with a later name. -/
  insertByName (k : String) (j : Json) : List (String × Json) → List (String × Json)
    | [] => [(k, j)]
    | (k', j') :: rest =>
      if k < k' then (k, j) :: (k', j') :: rest else (k', j') :: insertByName k j rest

end

end Json

end MachineDriver
