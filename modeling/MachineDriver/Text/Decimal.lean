set_option autoImplicit false

/-!
# Numerals

Numbers below a bound, read from ASCII digits in a base. A numeral is never empty, and any number of
leading zeros is allowed; a rule that forbids them is stated where it belongs.
-/

namespace MachineDriver.Text

/-- The value of a digit in a base of at most sixteen. -/
def digitValue? (base : Nat) (c : Char) : Option Nat :=
  let n := c.toNat
  let v :=
    if 48 ≤ n ∧ n ≤ 57 then n - 48
    else if 97 ≤ n ∧ n ≤ 102 then n - 87
    else if 65 ≤ n ∧ n ≤ 70 then n - 55
    else base
  if v < base then some v else none

/-- The value of a run of digits, the most significant first, on top of the digits already read. -/
def readDigits? (base : Nat) : Nat → List Char → Option Nat
  | acc, [] => some acc
  | acc, c :: cs =>
    match digitValue? base c with
    | some d => readDigits? base (acc * base + d) cs
    | none => none

/-- The value of a numeral, which has at least one digit. -/
def readNumeral? (base : Nat) (cs : List Char) : Option Nat :=
  if cs.isEmpty then none else readDigits? base 0 cs

/-- The value of a numeral that lies below a bound. -/
def readBelow? (base bound : Nat) (cs : List Char) : Option Nat :=
  match readNumeral? base cs with
  | some n => if n < bound then some n else none
  | none => none

/-- The value of a decimal numeral below a bound, which may carry a plus sign. -/
def readUnsigned? (bound : Nat) (s : String) : Option Nat :=
  match s.toList with
  | '+' :: cs => readBelow? 10 bound cs
  | cs => readBelow? 10 bound cs

/-- Whether a character is one of the ten ASCII digits. -/
def isDigit (c : Char) : Bool :=
  48 ≤ c.toNat && c.toNat ≤ 57

/-- The decimal digits of a number. -/
def decimal (n : Nat) : List Char :=
  Nat.toDigits 10 n

theorem isDigit_iff {c : Char} : c.isDigit = true ↔ 48 ≤ c.toNat ∧ c.toNat ≤ 57 := by
  simp only [Char.isDigit, Bool.and_eq_true, decide_eq_true_eq, ge_iff_le, UInt32.le_iff_toNat_le]
  exact Iff.rfl

theorem isDigit_eq (c : Char) : isDigit c = c.isDigit := by
  rw [Bool.eq_iff_iff, isDigit_iff, isDigit, Bool.and_eq_true, decide_eq_true_eq, decide_eq_true_eq]

theorem isDigit_of_mem_decimal {n : Nat} {c : Char} (h : c ∈ decimal n) : c.isDigit = true :=
  Nat.isDigit_of_mem_toDigits (by decide) (by decide) h

/-- A numeral has digits only. -/
theorem notMem_decimal {c : Char} (h : c.isDigit = false) (n : Nat) : c ∉ decimal n := by
  intro hc
  rw [isDigit_of_mem_decimal hc] at h
  cases h

/-- Different numbers have different numerals. -/
theorem decimal_inj {m n : Nat} (h : decimal m = decimal n) : m = n := by
  have hread := congrArg (fun cs => Nat.ofDigitChars 10 cs 0) h
  simpa [decimal, Nat.ofDigitChars_ten_toDigits] using hread

/-- The hexadecimal digit of a number below sixteen, in lower case. -/
def hexDigit (n : Nat) : Char :=
  if n < 10 then Char.ofNat (48 + n) else Char.ofNat (87 + n)

/-- The hexadecimal digit of a number below sixteen, in upper case. -/
def upperHexDigit (n : Nat) : Char :=
  if n < 10 then Char.ofNat (48 + n) else Char.ofNat (55 + n)

/-- The hexadecimal digits of a number, in lower case and without leading zeros. -/
def hexadecimal (n : Nat) : List Char :=
  Nat.toDigits 16 n

end MachineDriver.Text
