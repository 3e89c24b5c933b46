import MachineDriver.Machine.Error

set_option autoImplicit false

/-!
# Provider identifiers

A machine is known to its controller by its name behind a fixed scheme.
-/

namespace MachineDriver.ProviderId

/-- The name of the provider of all machines. -/
def provider : String := "kubevirt"

/-- What every identifier begins with. -/
def scheme : List Char :=
  provider.toList ++ [':', '/', '/']

/-- The identifier of a machine. -/
def encode (name : String) : String :=
  String.ofList (scheme ++ name.toList)

/-- What follows one list at the front of another. -/
def after? : List Char → List Char → Option (List Char)
  | [], cs => some cs
  | _ :: _, [] => none
  | p :: ps, c :: cs => if p = c then after? ps cs else none

/-- The machine of an identifier; no machine has an empty name. -/
def decode (id : String) : Except DriverError String :=
  match after? scheme id.toList with
  | some (c :: cs) => .ok (String.ofList (c :: cs))
  | _ => .error (.invalidProviderId id)

/-- Different machines have different identifiers. -/
theorem encode_inj {name name' : String} (h : encode name = encode name') : name = name' := by
  have hchars := String.ofList_injective h
  exact String.toList_inj.mp (List.append_cancel_left hchars)

/-! ## Reading back -/

theorem after?_append (p cs : List Char) : after? p (p ++ cs) = some cs := by
  induction p with
  | nil => rfl
  | cons c p ih => simpa [after?] using ih

theorem eq_append_of_after? {p cs rest : List Char} (h : after? p cs = some rest) :
    cs = p ++ rest := by
  induction p generalizing cs with
  | nil => simpa [after?] using h
  | cons c p ih =>
    cases cs with
    | nil => simp [after?] at h
    | cons d cs =>
      simp only [after?] at h
      split at h
      · rename_i hcd
        rw [hcd, List.cons_append, ih h]
      · cases h

/-- The identifier of a machine is read back as its name. -/
theorem decode_encode {name : String} (h : name ≠ "") : decode (encode name) = .ok name := by
  have hafter : after? scheme (encode name).toList = some name.toList := by
    rw [encode, String.toList_ofList]
    exact after?_append scheme name.toList
  cases hchars : name.toList with
  | nil => exact absurd (String.toList_eq_nil_iff.mp hchars) h
  | cons c cs =>
    rw [decode, hafter, hchars]
    exact congrArg Except.ok (by rw [← hchars, String.ofList_toList])

end MachineDriver.ProviderId
