set_option autoImplicit false

/-!
# Powers

Powers of the bases that numbers are written in. A negative exponent counts as zero.
-/

namespace MachineDriver

/-- A power of two. -/
def twoTo (e : Int) : Nat :=
  Nat.pow 2 e.toNat

/-- A power of five. -/
def fiveTo (e : Int) : Nat :=
  Nat.pow 5 e.toNat

/-- A power of ten. -/
def tenTo (e : Int) : Nat :=
  Nat.pow 10 e.toNat

end MachineDriver
