import MachineDriver.Proofs.Cutting
import MachineDriver.Text.Decimal
import Mathlib.Data.List.Forall2
import Mathlib.Data.Nat.Digits.Defs

set_option autoImplicit false

/-!
# What numerals denote

`Text.IsNumeral` says which number a numeral of a base denotes, by the values of its digits and with
any number of zeros in front. What is read of a text is the number that it denotes
(`readBelow?_eq_some_iff`), and a decimal numeral without zeros in front is the one that is written
for its number (`eq_decimal_of_isNumeral`). -/

namespace MachineDriver.Text

/-- Characters are a numeral of a number: there is at least one, each is a digit of the base, and
    the values of the digits, the most significant first, make up the number. -/
def IsNumeral (base : Nat) (cs : List Char) (n : Nat) : Prop :=
  cs ≠ [] ∧ ∃ values, List.Forall₂ (fun c v => digitValue? base c = some v) cs values
    ∧ Nat.ofDigits base values.reverse = n

variable {base bound n : Nat} {cs : List Char}

/-- Digits that come after others are worth what is left when these are shifted. -/
theorem readDigits?_eq_some_iff {acc : Nat} : readDigits? base acc cs = some n
    ↔ ∃ values, List.Forall₂ (fun c v => digitValue? base c = some v) cs values
      ∧ Nat.ofDigits base values.reverse + base ^ values.length * acc = n := by
  induction cs generalizing acc with
  | nil => simp [readDigits?, List.forall₂_nil_left_iff]
  | cons c cs ih =>
      rw [readDigits?]
      constructor
      · intro h
        split at h
        · rename_i v hv
          obtain ⟨values, hvalues, rfl⟩ := ih.mp h
          refine ⟨v :: values, .cons hv hvalues, ?_⟩
          rw [List.reverse_cons, Nat.ofDigits_append, Nat.ofDigits_singleton, List.length_reverse,
            List.length_cons]
          ring
        · cases h
      · rintro ⟨values, hvalues, rfl⟩
        cases hvalues with
        | @cons _ v _ values hv hvalues =>
            rw [hv]
            refine ih.mpr ⟨values, hvalues, ?_⟩
            rw [List.reverse_cons, Nat.ofDigits_append, Nat.ofDigits_singleton, List.length_reverse,
              List.length_cons]
            ring

theorem readNumeral?_eq_some_iff : readNumeral? base cs = some n ↔ IsNumeral base cs n := by
  rw [readNumeral?, IsNumeral]
  by_cases hempty : cs = []
  · simp [hempty]
  · rw [if_neg (by simpa using hempty), readDigits?_eq_some_iff]
    simp [hempty]

/-- What is read of a text is the number that it denotes, if this is below the bound. -/
theorem readBelow?_eq_some_iff :
    readBelow? base bound cs = some n ↔ IsNumeral base cs n ∧ n < bound := by
  rw [readBelow?, ← readNumeral?_eq_some_iff]
  cases readNumeral? base cs with
  | none => simp
  | some m =>
      dsimp only
      split
      · rename_i hlt
        constructor
        · rintro ⟨⟩
          exact ⟨rfl, hlt⟩
        · exact And.left
      · rename_i hlt
        constructor
        · rintro ⟨⟩
        · rintro ⟨⟨⟩, h⟩
          exact absurd h hlt

theorem isDigit_of_forall₂ {values : List Nat}
    (h : List.Forall₂ (fun c v => digitValue? base c = some v) cs values) :
    ∀ c ∈ cs, (digitValue? base c).isSome = true := by
  induction h with
  | nil => simp
  | cons hv _ ih => simpa [hv] using ih

theorem IsNumeral.isDigit (h : IsNumeral base cs n) :
    ∀ c ∈ cs, (digitValue? base c).isSome = true := by
  obtain ⟨-, values, hvalues, -⟩ := h
  exact isDigit_of_forall₂ hvalues

/-- A text is a decimal numeral of a number, in front of which a plus sign may stand. -/
def IsUnsigned (s : String) (n : Nat) : Prop :=
  ∃ digits, (s.toList = digits ∨ s.toList = '+' :: digits) ∧ IsNumeral 10 digits n

theorem readUnsigned?_eq_some_iff {s : String} :
    readUnsigned? bound s = some n ↔ IsUnsigned s n ∧ n < bound := by
  rw [readUnsigned?, IsUnsigned]
  split
  · rename_i cs hplus
    rw [hplus, readBelow?_eq_some_iff]
    constructor
    · rintro ⟨hnumeral, hlt⟩
      exact ⟨⟨cs, .inr rfl, hnumeral⟩, hlt⟩
    · rintro ⟨⟨digits, rfl | hdigits, hnumeral⟩, hlt⟩
      · -- A plus sign is no digit.
        have hdigit := hnumeral.isDigit '+' List.mem_cons_self
        cases hdigit
      · cases hdigits
        exact ⟨hnumeral, hlt⟩
  · rename_i hplus
    rw [readBelow?_eq_some_iff]
    constructor
    · rintro ⟨hnumeral, hlt⟩
      exact ⟨⟨_, .inl rfl, hnumeral⟩, hlt⟩
    · rintro ⟨⟨digits, rfl | hdigits, hnumeral⟩, hlt⟩
      · exact ⟨hnumeral, hlt⟩
      · exact absurd hdigits (hplus digits)

/-- The digits of a numeral come first where no digit follows it. -/
theorem IsNumeral.takeWhile_append {rest : List Char} (h : IsNumeral base cs n)
    (hrest : ∀ c ∈ rest.head?, digitValue? base c = none) :
    ((cs ++ rest).takeWhile fun c => (digitValue? base c).isSome) = cs :=
  takeWhile_append_of_head h.isDigit fun c hc => by
    rw [hrest c hc]
    rfl

theorem IsNumeral.dropWhile_append {rest : List Char} (h : IsNumeral base cs n)
    (hrest : ∀ c ∈ rest.head?, digitValue? base c = none) :
    ((cs ++ rest).dropWhile fun c => (digitValue? base c).isSome) = rest :=
  dropWhile_append_of_head h.isDigit fun c hc => by
    rw [hrest c hc]
    rfl

/-! ## Decimal numerals -/

/-- The ten digits have the same values in all bases that have them. -/
theorem digitValue?_of_isDigit {c : Char} (hbase : 10 ≤ base) (h : c.isDigit = true) :
    digitValue? base c = some (c.toNat - '0'.toNat) := by
  rw [isDigit_iff] at h
  have hzero : '0'.toNat = 48 := rfl
  rw [digitValue?, if_pos h, hzero]
  exact if_pos (by omega)

/-- A character without a value is none of the ten digits. -/
theorem isDigit_of_digitValue?_eq_none {c : Char} (hbase : 10 ≤ base)
    (h : digitValue? base c = none) : c.isDigit = false := by
  rw [Bool.eq_false_iff]
  intro hdigit
  rw [digitValue?_of_isDigit hbase hdigit] at h
  cases h

theorem isDigit_of_digitValue? {c : Char} {v : Nat} (h : digitValue? 10 c = some v) :
    c.isDigit = true := by
  rw [isDigit_iff]
  by_contra hdigit
  rw [digitValue?, if_neg hdigit] at h
  split_ifs at h <;> omega

theorem digitValue?_ten_eq_none_iff {c : Char} :
    digitValue? 10 c = none ↔ c.isDigit = false := by
  refine ⟨isDigit_of_digitValue?_eq_none (by decide), fun h => ?_⟩
  rw [Option.eq_none_iff_forall_ne_some]
  intro v hv
  rw [isDigit_of_digitValue? hv] at h
  cases h

theorem decimal_of_lt_ten {v : Nat} (h : v < 10) : decimal v = [Char.ofNat (48 + v)] := by
  have hall : ∀ v < 10, decimal v = [Char.ofNat (48 + v)] := by decide
  exact hall v h

/-- A digit is written for its value. -/
theorem decimal_of_digitValue? {c : Char} {v : Nat} (h : digitValue? 10 c = some v) :
    v < 10 ∧ decimal v = [c] := by
  have hdigit := isDigit_of_digitValue? h
  rw [digitValue?_of_isDigit (by decide) hdigit] at h
  cases h
  rw [isDigit_iff] at hdigit
  have hzero : '0'.toNat = 48 := rfl
  have hlt : c.toNat - '0'.toNat < 10 := by omega
  have hback : 48 + (c.toNat - '0'.toNat) = c.toNat := by omega
  exact ⟨hlt, by rw [decimal_of_lt_ten hlt, hback, Char.ofNat_toNat]⟩

/-- Digits after the numeral of a number that is not zero make the numeral of another one. -/
theorem decimal_append_of_readDigits? {acc : Nat} (h : readDigits? 10 acc cs = some n)
    (hacc : 0 < acc) : decimal acc ++ cs = decimal n := by
  induction cs generalizing acc with
  | nil =>
      cases h
      exact List.append_nil _
  | cons c cs ih =>
      rw [readDigits?] at h
      split at h
      · rename_i v hv
        obtain ⟨hlt, hdigit⟩ := decimal_of_digitValue? hv
        have hshift : decimal acc ++ [c] = decimal (acc * 10 + v) := by
          rw [← hdigit, decimal, decimal, Nat.toDigits_append_toDigits (by decide) hacc hlt,
            Nat.mul_comm, decimal]
        rw [← ih h (by omega), ← hshift, List.append_assoc, List.singleton_append]
      · cases h

/-- A numeral without zeros in front is the one that is written for its number. -/
theorem eq_decimal_of_isNumeral (h : IsNumeral 10 cs n)
    (hzero : cs.head? = some '0' → cs.length ≤ 1) : cs = decimal n := by
  rw [← readNumeral?_eq_some_iff, readNumeral?] at h
  cases cs with
  | nil => cases h
  | cons c cs =>
      rw [if_neg (by simp), readDigits?] at h
      split at h
      · rename_i v hv
        obtain ⟨-, hdigit⟩ := decimal_of_digitValue? hv
        rw [Nat.zero_mul, Nat.zero_add] at h
        cases v with
        | zero =>
            obtain rfl : '0' = c := List.head_eq_of_cons_eq hdigit
            have hlength := hzero rfl
            obtain rfl : cs = [] := List.length_eq_zero_iff.mp (by simpa using hlength)
            cases h
            rfl
        | succ v => rw [← decimal_append_of_readDigits? h (by omega), hdigit, List.singleton_append]
      · cases h

theorem readDigits?_of_digits {digits : List Char} (h : ∀ c ∈ digits, c.isDigit = true)
    (acc : Nat) : readDigits? 10 acc digits = some (Nat.ofDigitChars 10 digits acc) := by
  induction digits generalizing acc with
  | nil => simp [readDigits?]
  | cons c digits ih =>
      rw [List.forall_mem_cons] at h
      rw [readDigits?, digitValue?_of_isDigit (by decide) h.1]
      dsimp only
      rw [ih h.2, Nat.ofDigitChars_cons, Nat.mul_comm]

theorem isNumeral_decimal (n : Nat) : IsNumeral 10 (decimal n) n := by
  rw [← readNumeral?_eq_some_iff, readNumeral?, if_neg (by simp [decimal, Nat.toDigits_ne_nil]),
    readDigits?_of_digits (fun c hc => isDigit_of_mem_decimal hc), decimal,
    Nat.ofDigitChars_ten_toDigits]

theorem lt_of_digitValue?_eq {c : Char} {v : Nat} (h : digitValue? base c = some v) : v < base := by
  obtain ⟨hlt, hv⟩ := Option.ite_none_right_eq_some.mp h
  cases hv
  exact hlt

theorem lt_of_forall₂ {values : List Nat}
    (h : List.Forall₂ (fun c v => digitValue? base c = some v) cs values) :
    ∀ v ∈ values, v < base := by
  induction h with
  | nil => simp
  | cons hv _ ih => simpa using ⟨lt_of_digitValue?_eq hv, ih⟩

/-- A numeral denotes a number that has not more digits. -/
theorem IsNumeral.lt_pow (h : IsNumeral 10 cs n) : n < 10 ^ cs.length := by
  obtain ⟨-, values, hvalues, rfl⟩ := h
  rw [hvalues.length_eq, ← List.length_reverse]
  exact Nat.ofDigits_lt_base_pow_length (by decide) fun v hv =>
    lt_of_forall₂ hvalues v (List.mem_reverse.mp hv)

/-- The numeral that is written for a number has no zero in front of other digits. -/
theorem length_decimal_of_head? (h : (decimal n).head? = some '0') : (decimal n).length ≤ 1 := by
  obtain ⟨cs, hcs⟩ : ∃ cs, decimal n = '0' :: cs := List.head?_eq_some_iff.mp h
  have hread := readNumeral?_eq_some_iff.mpr (isNumeral_decimal n)
  rw [hcs] at hread ⊢
  cases cs with
  | nil => exact Nat.le_refl 1
  | cons c cs =>
      -- Without the zero it would denote the same number with fewer digits.
      have hrest : IsNumeral 10 (c :: cs) n := readNumeral?_eq_some_iff.mp hread
      have hshort : (decimal n).length ≤ (c :: cs).length :=
        (Nat.length_toDigits_le_iff (by decide) (by simp)).mpr hrest.lt_pow
      rw [hcs, List.length_cons] at hshort
      omega

end MachineDriver.Text
