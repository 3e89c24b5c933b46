import MachineDriver.Json.Basic

set_option autoImplicit false

/-!
# Merge patches

A patch is a document that is laid over another: objects are merged field by field, null takes a
field away, and anything else replaces what was there.
-/

namespace MachineDriver.MergePatch

open Json (find?)

/-- Fields without those of a name. -/
def erase (name : String) (fields : List (String × Json)) : List (String × Json) :=
  fields.filter fun f => f.1 ≠ name

/-- Fields in which a name has a value: its first field keeps its place and others of the name are
taken away; a new name comes last. -/
def set (name : String) (value : Json) : List (String × Json) → List (String × Json)
  | [] => [(name, value)]
  | (k, v) :: rest =>
    if k = name then (name, value) :: erase name rest else (k, v) :: set name value rest

section Fields

variable {name other : String} {value : Json} {fields : List (String × Json)}

theorem erase_cons (k : String) (v : Json) : erase name ((k, v) :: fields)
    = if k = name then erase name fields else (k, v) :: erase name fields := by
  by_cases h : k = name <;> simp [erase, h]

theorem find?_erase : find? other (erase name fields)
    = if other = name then none else find? other fields := by
  induction fields with
  | nil => simp [erase, find?]
  | cons f fields ih =>
    obtain ⟨k, v⟩ := f
    rw [erase_cons]
    by_cases hk : k = name
    · rw [if_pos hk, ih, find?, hk]
      by_cases ho : other = name
      · rw [if_pos ho, if_pos ho]
      · rw [if_neg ho, if_neg ho, if_neg (Ne.symm ho)]
    · rw [if_neg hk, find?, find?, ih]
      by_cases ho : k = other
      · rw [if_pos ho, if_pos ho, if_neg (ho ▸ hk)]
      · rw [if_neg ho, if_neg ho]

theorem find?_set : find? other (set name value fields)
    = if other = name then some value else find? other fields := by
  induction fields with
  | nil => simp [set, find?, eq_comm]
  | cons f fields ih =>
    obtain ⟨k, v⟩ := f
    rw [set]
    by_cases hk : k = name
    · rw [if_pos hk, find?, find?, find?_erase, hk]
      by_cases ho : other = name
      · rw [if_pos ho.symm, if_pos ho]
      · rw [if_neg (Ne.symm ho), if_neg ho, if_neg ho, if_neg (Ne.symm ho)]
    · rw [if_neg hk, find?, find?, ih]
      by_cases ho : k = other
      · rw [if_pos ho, if_pos ho, if_neg (ho ▸ hk)]
      · rw [if_neg ho, if_neg ho]

end Fields

mutual

/-- The document that results when a patch is laid over a target, if there is one. -/
def apply (target : Option Json) : Json → Json
  | .object patch =>
    match target with
    | some (.object fields) => .object (applyFields fields patch)
    | _ => .object (applyFields [] patch)
  | patch => patch

/-- The fields that result when the fields of a patch are laid over those of a target. -/
def applyFields (fields : List (String × Json)) : List (String × Json) → List (String × Json)
  | [] => fields
  | (name, .null) :: rest => applyFields (erase name fields) rest
  | (name, patch) :: rest =>
    applyFields (set name (apply (find? name fields) patch) fields) rest

end

/-- The patch that sets whether a machine is to run, for the given version of the machine only. -/
def ofRunning (version : Option String) (running : Bool) : Json :=
  let spec := ("spec", .object [("running", .bool running)])
  match version with
  | some v => .object [("metadata", .object [("resourceVersion", .string v)]), spec]
  | none => .object [spec]

end MachineDriver.MergePatch
