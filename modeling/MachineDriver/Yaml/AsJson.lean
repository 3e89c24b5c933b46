import MachineDriver.Json.Basic
import MachineDriver.Yaml.Basic

set_option autoImplicit false

/-!
# YAML values as JSON

A YAML value as the document that a reader of JSON takes it for. Tags are passed over. What no
document can say becomes a fault that a reader may skip: keys that are no texts, numbers that are
not finite, and tags on nothing.
-/

namespace MachineDriver.Yaml

/-- A number as a document: a power of two below one is a power of ten times one of five. -/
def numberAsJson : Binary64 → Json
  | .finite negative significand exponent =>
    if 0 ≤ exponent then .number (.decimal negative (significand * twoTo exponent) 0)
    else .number (.decimal negative (significand * fiveTo (-exponent)) exponent)
  | .infinite _ => .fault true
  | .nan => .fault true

/-- The text that a key is, whatever tags it has. -/
def keyText? : Yaml → Option String
  | .text s => some s
  | .tagged _ v => v.keyText?
  | _ => none

mutual

/-- A value as a document. -/
def asJson : Yaml → Json
  | .null => .null
  | .bool b => .bool b
  | .integer n => .number (.integer n)
  | .decimal x => numberAsJson x
  | .text s => .string s
  | .sequence items => .array (itemsAsJson items)
  | .mapping entries =>
    match fieldsAsJson? entries with
    | some fields => .object fields
    | none => .fault true
  | .tagged _ v => if v.isNull then .fault true else v.asJson

/-- The items of a sequence as documents. -/
def itemsAsJson : List Yaml → List Json
  | [] => []
  | v :: rest => v.asJson :: itemsAsJson rest

/-- The entries of a mapping as fields, if all keys are texts. -/
def fieldsAsJson? : List (Yaml × Yaml) → Option (List (String × Json))
  | [] => some []
  | (k, v) :: rest =>
    match k.keyText?, fieldsAsJson? rest with
    | some name, some fields => some ((name, v.asJson) :: fields)
    | _, _ => none

end

end MachineDriver.Yaml
