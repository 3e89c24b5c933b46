import Mathlib.Algebra.Order.Field.Power
import Mathlib.Algebra.Order.Floor.Semifield
import Mathlib.Data.Rat.Floor
import Mathlib.Tactic.Linarith
import Mathlib.Tactic.Positivity
import Mathlib.Tactic.Ring
import MachineDriver.Number.Duration

set_option autoImplicit false

/-!
# Rounding of numbers and durations

The sizes of numbers as rationals, and what an operation makes of them. The nearest integer and the
power of two that leaves 53 bits are specified apart: `Nearest` and `RoundsTo`. Rounding never
crosses a size that needs no rounding (`Rounds.le`, `Rounds.ge`), and it moves a size by half of its
last bit at most (`Rounds.near`). The operations are then given by their exact results:
`mul_isNearest`, `add_isNearest` and `lesser_isSize`.

A duration of up to `2 ^ 23` seconds is the duration of its seconds (`ofSeconds_seconds`).
-/

namespace MachineDriver

namespace Binary64

/-! ## Powers -/

theorem cast_twoTo {e : ℤ} (he : 0 ≤ e) : ((twoTo e : ℕ) : ℚ) = 2 ^ e := by
  obtain ⟨n, rfl⟩ := Int.eq_ofNat_of_zero_le he
  simp [twoTo]

theorem twoTo_pos (e : ℤ) : 0 < twoTo e :=
  Nat.pow_pos (by decide)

theorem two_zpow_pos (e : ℤ) : (0 : ℚ) < 2 ^ e :=
  zpow_pos (by norm_num) e

theorem two_zpow_add (a b : ℤ) : (2 : ℚ) ^ (a + b) = 2 ^ a * 2 ^ b :=
  zpow_add₀ (by norm_num) a b

theorem two_zpow_le {a b : ℤ} (h : a ≤ b) : (2 : ℚ) ^ a ≤ 2 ^ b :=
  zpow_le_zpow_right₀ (by norm_num) h

theorem two_zpow_lt_iff {a b : ℤ} : (2 : ℚ) ^ a < 2 ^ b ↔ a < b :=
  zpow_lt_zpow_iff_right₀ (by norm_num)

/-! ## The nearest integer -/

/-- The integer is nearest to the rational, and of two that are the even one. -/
structure Nearest (n : ℕ) (q : ℚ) : Prop where
  le : (n : ℚ) ≤ q + 1 / 2
  ge : q ≤ n + 1 / 2
  even : (n : ℚ) = q + 1 / 2 ∨ q = n + 1 / 2 → Even n

/-- A ratio is its whole part and a fraction. -/
theorem ratio_parts (num : ℕ) {den : ℕ} (hden : 0 < den) :
    (num : ℚ) / den = (num / den : ℕ) + ((num % den : ℕ) : ℚ) / den
      ∧ ((num % den : ℕ) : ℚ) / den < 1 := by
  have hpos : (0 : ℚ) < den := by exact_mod_cast hden
  constructor
  · have hcast : (den : ℚ) * (num / den : ℕ) + (num % den : ℕ) = num := by
      exact_mod_cast Nat.div_add_mod num den
    rw [div_eq_iff hpos.ne', add_mul, div_mul_cancel₀ _ hpos.ne']
    linarith
  · rw [div_lt_one hpos]
    exact_mod_cast Nat.mod_lt num hden

theorem nearest_roundRatio {num den : ℕ} (hden : 0 < den) :
    Nearest (roundRatio num den) ((num : ℚ) / den) := by
  have hpos : (0 : ℚ) < den := by exact_mod_cast hden
  obtain ⟨hparts, hrest⟩ := ratio_parts num hden
  have hnonneg : (0 : ℚ) ≤ (num % den : ℕ) / (den : ℚ) := by positivity
  rw [hparts]
  unfold roundRatio
  generalize hq : num / den = q
  generalize hr : num % den = r at *
  have hnext : ((q + 1 : ℕ) : ℚ) = q + 1 := Nat.cast_succ q
  -- The cases are those of the remainder against half of the denominator.
  dsimp only
  split
  · rename_i hbelow
    have : (r : ℚ) / den < 1 / 2 := by
      rw [div_lt_iff₀ hpos]
      have : (2 * r : ℚ) < den := by exact_mod_cast hbelow
      linarith
    exact ⟨by linarith, by linarith, by rintro (h | h) <;> linarith⟩
  · split
    · rename_i habove
      have : 1 / 2 < (r : ℚ) / den := by
        rw [lt_div_iff₀ hpos]
        have : (den : ℚ) < 2 * r := by exact_mod_cast habove
        linarith
      exact ⟨by linarith, by linarith, by rintro (h | h) <;> linarith⟩
    · have hhalf : (r : ℚ) / den = 1 / 2 := by
        rw [div_eq_iff hpos.ne']
        have : (2 * r : ℚ) = den := by exact_mod_cast (by omega : 2 * r = den)
        linarith
      rw [hhalf]
      split
      · rename_i heven
        exact ⟨by linarith, le_refl _, fun _ => Nat.even_iff.mpr heven⟩
      · rename_i hodd
        refine ⟨by linarith, by linarith, fun _ => ?_⟩
        exact Nat.even_add_one.mpr (fun h => hodd (Nat.even_iff.mp h))

theorem nearest_self (n : ℕ) : Nearest n n :=
  ⟨by linarith, by linarith, by rintro (h | h) <;> linarith⟩

namespace Nearest

variable {n k : ℕ} {q r : ℚ}

/-- A greater rational has no lesser integer nearest to it. -/
theorem mono (hn : Nearest n q) (hk : Nearest k r) (h : q ≤ r) : n ≤ k := by
  by_contra hlt
  have hstep : (k : ℚ) + 1 ≤ n := by exact_mod_cast Nat.lt_of_not_le hlt
  have hn_le := hn.le
  have hk_ge := hk.ge
  -- Both rationals would lie halfway between the two integers, which are neighbours.
  have hn_even : Even n := hn.even (.inl (by linarith))
  have hk_even : Even k := hk.even (.inr (by linarith))
  have hnext : n = k + 1 := by
    have : (n : ℚ) = k + 1 := by linarith
    exact_mod_cast this
  exact (Nat.even_add_one.mp (hnext ▸ hn_even)) hk_even

theorem le_of_le (hn : Nearest n q) (h : q ≤ k) : n ≤ k :=
  hn.mono (nearest_self k) h

theorem ge_of_ge (hn : Nearest n q) (h : (k : ℚ) ≤ q) : k ≤ n :=
  (nearest_self k).mono hn h

/-- What lies less than half from an integer has this integer nearest to it. -/
theorem eq_of_near (hn : Nearest n q) (h : |q - k| < 1 / 2) : n = k := by
  obtain ⟨hbelow, habove⟩ := abs_lt.mp h
  have hn_le := hn.le
  have hn_ge := hn.ge
  have hlt : (n : ℚ) < k + 1 := by linarith
  have hgt : (k : ℚ) < n + 1 := by linarith
  have : n < k + 1 := by exact_mod_cast hlt
  have : k < n + 1 := by exact_mod_cast hgt
  omega

end Nearest

/-! ## Rounding to 53 bits -/

/-- A size that needs no rounding. -/
def Fits (v : ℚ) : Prop :=
  ∃ (m : ℕ) (e : ℤ), m < 2 ^ 53 ∧ leastExponent ≤ e ∧ v = m * 2 ^ e

/-- A size is rounded to a significand times a power of two: the power leaves 53 bits of it, or
    fewer if it is the least one. -/
structure RoundsTo (q : ℚ) (m : ℕ) (e : ℤ) : Prop where
  nearest : Nearest m (q / 2 ^ e)
  least : leastExponent ≤ e
  below : q < 2 ^ 53 * 2 ^ e
  full : e = leastExponent ∨ 2 ^ 52 * 2 ^ e ≤ q

/-- The size to which a size is rounded. -/
def Rounds (q v : ℚ) : Prop :=
  ∃ m e, RoundsTo q m e ∧ v = m * 2 ^ e

theorem fits_natCast {n : ℕ} (h : n < 2 ^ 53) : Fits n :=
  ⟨n, 0, h, by decide, by simp⟩

theorem fits_two_zpow {e : ℤ} (h : leastExponent ≤ e) : Fits (2 ^ e) :=
  ⟨1, e, by norm_num, h, by simp⟩

/-- A size that needs no rounding is a whole number of the last bits of any other, or has less
    than 53 bits above them. -/
theorem Fits.multiple_or_lt {b : ℚ} (hb : Fits b) (e : ℤ) :
    (∃ n : ℕ, b = n * 2 ^ e) ∨ leastExponent < e ∧ b < 2 ^ 52 * 2 ^ e := by
  obtain ⟨n, k, hn, hk, rfl⟩ := hb
  rcases le_or_gt e k with hek | hke
  · refine .inl ⟨n * twoTo (k - e), ?_⟩
    rw [Nat.cast_mul, cast_twoTo (by omega), mul_assoc, ← two_zpow_add, sub_add_cancel]
  · refine .inr ⟨by omega, ?_⟩
    have hn : (n : ℚ) < 2 ^ 53 := by exact_mod_cast hn
    calc (n : ℚ) * 2 ^ k < 2 ^ 53 * 2 ^ k := mul_lt_mul_of_pos_right hn (two_zpow_pos k)
      _ = 2 ^ 52 * 2 ^ (k + 1) := by rw [two_zpow_add, zpow_one]; ring
      _ ≤ 2 ^ 52 * 2 ^ e := mul_le_mul_of_nonneg_left (two_zpow_le (by omega)) (by positivity)

/-- Rounding up may need one bit more, which the next power takes. -/
theorem RoundsTo.significand_le {q : ℚ} {m : ℕ} {e : ℤ} (h : RoundsTo q m e) : m ≤ 2 ^ 53 :=
  h.nearest.le_of_le (by push_cast; exact ((div_lt_iff₀ (two_zpow_pos e)).mpr h.below).le)

namespace Rounds

variable {q b v : ℚ}

theorem zero : Rounds 0 0 :=
  ⟨0, leastExponent, ⟨by simpa using nearest_self 0, le_refl _, by positivity, .inl rfl⟩, by simp⟩

/-- Rounding does not go above a size that needs none. -/
theorem le (h : Rounds q v) (hb : Fits b) (hq : q ≤ b) : v ≤ b := by
  obtain ⟨m, e, hto, rfl⟩ := h
  have he := two_zpow_pos e
  rcases hb.multiple_or_lt e with ⟨n, rfl⟩ | ⟨hleast, hlt⟩
  · have hm : m ≤ n := hto.nearest.le_of_le ((div_le_iff₀ he).mpr hq)
    exact mul_le_mul_of_nonneg_right (by exact_mod_cast hm) he.le
  · have hfull : 2 ^ 52 * 2 ^ e ≤ q := hto.full.resolve_left hleast.ne'
    exact absurd (hfull.trans hq) hlt.not_ge

/-- Nor does it go below one. -/
theorem ge (h : Rounds q v) (hb : Fits b) (hq : b ≤ q) : b ≤ v := by
  obtain ⟨m, e, hto, rfl⟩ := h
  have he := two_zpow_pos e
  rcases hb.multiple_or_lt e with ⟨n, rfl⟩ | ⟨hleast, hlt⟩
  · have hm : n ≤ m := hto.nearest.ge_of_ge ((le_div_iff₀ he).mpr hq)
    exact mul_le_mul_of_nonneg_right (by exact_mod_cast hm) he.le
  · have hfull : 2 ^ 52 * 2 ^ e ≤ q := hto.full.resolve_left hleast.ne'
    have hm : 2 ^ 52 ≤ m := hto.nearest.ge_of_ge (by push_cast; exact (le_div_iff₀ he).mpr hfull)
    have hm : (2 ^ 52 : ℚ) ≤ m := by exact_mod_cast hm
    exact hlt.le.trans (mul_le_mul_of_nonneg_right hm he.le)

theorem eq_of_fits (h : Rounds q v) (hq : Fits q) : v = q :=
  le_antisymm (h.le hq le_rfl) (h.ge hq le_rfl)

theorem fits (h : Rounds q v) : Fits v := by
  obtain ⟨m, e, hto, rfl⟩ := h
  rcases Nat.lt_or_eq_of_le hto.significand_le with hm | rfl
  · exact ⟨m, e, hm, hto.least, rfl⟩
  · refine ⟨2 ^ 52, e + 1, by norm_num, by have := hto.least; omega, ?_⟩
    rw [two_zpow_add]
    push_cast
    ring

/-- A size up to a power of two is moved by half of its 53rd bit at most. -/
theorem near {k : ℤ} (h : Rounds q v) (hq : q ≤ 2 ^ k) (hk : -1021 ≤ k) :
    |v - q| ≤ 2 ^ (k - 54) := by
  rcases eq_or_lt_of_le hq with rfl | hq
  · rw [h.eq_of_fits (fits_two_zpow (by unfold leastExponent; omega)), sub_self, abs_zero]
    exact (two_zpow_pos _).le
  obtain ⟨m, e, hto, rfl⟩ := h
  have he := two_zpow_pos e
  have hle : e ≤ k - 53 := by
    rcases hto.full with rfl | hfull
    · unfold leastExponent
      omega
    · have hlt : (2 : ℚ) ^ (52 + e) < 2 ^ k := by
        rw [two_zpow_add]
        exact lt_of_le_of_lt hfull hq
      have := two_zpow_lt_iff.mp hlt
      omega
  have hmoved : |(m : ℚ) * 2 ^ e - q| = |m - q / 2 ^ e| * 2 ^ e := by
    rw [← abs_of_pos he, ← abs_mul, sub_mul, abs_of_pos he, div_mul_cancel₀ _ he.ne']
  have hhalf : |(m : ℚ) - q / 2 ^ e| ≤ 1 / 2 := by
    have hm_le := hto.nearest.le
    have hm_ge := hto.nearest.ge
    exact abs_le.mpr ⟨by linarith, by linarith⟩
  calc |(m : ℚ) * 2 ^ e - q| = |m - q / 2 ^ e| * 2 ^ e := hmoved
    _ ≤ 1 / 2 * 2 ^ (k - 53) :=
        mul_le_mul hhalf (two_zpow_le hle) he.le (by norm_num)
    _ = 2 ^ (k - 54) := by
        rw [show k - 53 = k - 54 + 1 by ring, two_zpow_add (k - 54), zpow_one]
        ring

end Rounds

/-! ## The operations -/

/-- The number is finite and not below zero, and this is its size. A zero may have either sign. -/
def IsSize (v : ℚ) (x : Binary64) : Prop :=
  ∃ negative m e, x = .finite negative m e ∧ (negative = true → m = 0) ∧ v = m * 2 ^ e

/-- The number is not below zero. It may be infinite. -/
def NotNegative (x : Binary64) : Prop :=
  x = .infinite false ∨ ∃ v, x.IsSize v

/-- The number is the one nearest to a size, or infinite where the size is out of range. -/
def IsNearest (q : ℚ) (x : Binary64) : Prop :=
  (∃ v, Rounds q v ∧ x.IsSize v) ∨ x = .infinite false ∧ 2 ^ 1000 ≤ q

/-- A ratio and a power of two as a single ratio. -/
theorem scaled_ratio (num den : ℕ) (e : ℤ) :
    (if 0 ≤ e then ((num : ℕ) : ℚ) / (den * twoTo e : ℕ) else (num * twoTo (-e) : ℕ) / (den : ℚ))
      = num / den / 2 ^ e := by
  split
  · rename_i he
    rw [Nat.cast_mul, cast_twoTo he, div_div]
  · rename_i he
    rw [Nat.cast_mul, cast_twoTo (by omega), zpow_neg, mul_comm, mul_div_assoc,
      div_eq_inv_mul _ (2 ^ e)]

theorem log2_bounds {n : ℕ} (h : n ≠ 0) :
    (2 : ℚ) ^ (n.log2 : ℤ) ≤ n ∧ (n : ℚ) < 2 ^ (n.log2 + 1 : ℤ) := by
  constructor
  · rw [zpow_natCast]
    exact_mod_cast Nat.log2_self_le h
  · have hcast : (n.log2 + 1 : ℤ) = ((n.log2 + 1 : ℕ) : ℤ) := by push_cast; rfl
    rw [hcast, zpow_natCast]
    exact_mod_cast Nat.lt_log2_self

/-- The lengths of its parts give the power of a ratio up to one. -/
theorem ratio_bounds {num den : ℕ} {e : ℤ} (hnum : num ≠ 0) (hden : den ≠ 0)
    (he : e = num.log2 - den.log2 - 53) :
    2 ^ 52 * 2 ^ e ≤ (num : ℚ) / den ∧ (num : ℚ) / den < 2 ^ 54 * 2 ^ e := by
  obtain ⟨hnum_ge, hnum_lt⟩ := log2_bounds hnum
  obtain ⟨hden_ge, hden_lt⟩ := log2_bounds hden
  have hpos : (0 : ℚ) < den := (two_zpow_pos _).trans_le hden_ge
  have hpow := two_zpow_pos e
  constructor
  · rw [le_div_iff₀ hpos]
    calc (2 : ℚ) ^ 52 * 2 ^ e * den ≤ 2 ^ 52 * 2 ^ e * 2 ^ (den.log2 + 1 : ℤ) :=
          mul_le_mul_of_nonneg_left hden_lt.le (by positivity)
      _ = 2 ^ (num.log2 : ℤ) := by
          rw [← zpow_natCast 2 52, ← two_zpow_add, ← two_zpow_add]
          congr 1
          push_cast
          linarith
      _ ≤ num := hnum_ge
  · rw [div_lt_iff₀ hpos]
    calc (num : ℚ) < 2 ^ (num.log2 + 1 : ℤ) := hnum_lt
      _ = 2 ^ 54 * 2 ^ e * 2 ^ (den.log2 : ℤ) := by
          rw [← zpow_natCast 2 54, ← two_zpow_add, ← two_zpow_add]
          congr 1
          push_cast
          linarith
      _ ≤ 2 ^ 54 * 2 ^ e * den := mul_le_mul_of_nonneg_left hden_ge (by positivity)

theorem le_div_iff_cast {k num den : ℕ} : k ≤ num / den ↔ (k : ℚ) ≤ (num : ℚ) / den := by
  have hfloor : ⌊(num : ℚ) / den⌋₊ = num / den := Nat.floor_div_eq_div num den
  rw [← hfloor, Nat.le_floor_iff (by positivity)]

/-- The power of two by which a ratio is divided leaves 53 bits of it. -/
theorem exponentFor_spec {num den : ℕ} (hnum : num ≠ 0) (hden : den ≠ 0) :
    leastExponent ≤ exponentFor num den
      ∧ (num : ℚ) / den < 2 ^ 53 * 2 ^ exponentFor num den
      ∧ (exponentFor num den = leastExponent
          ∨ 2 ^ 52 * 2 ^ exponentFor num den ≤ (num : ℚ) / den) := by
  obtain ⟨hlow, hhigh⟩ := ratio_bounds hnum hden rfl
  have hscaled := scaled_ratio num den (num.log2 - den.log2 - 53)
  unfold exponentFor
  generalize (num.log2 - den.log2 - 53 : ℤ) = e at *
  dsimp only
  generalize hwhole : (if 0 ≤ e then num / (den * twoTo e) else num * twoTo (-e) / den) = whole
  have hpow := two_zpow_pos e
  have hnext : (2 : ℚ) ^ (e + 1) = 2 ^ e * 2 := by rw [two_zpow_add, zpow_one]
  -- The ratio has 54 bits exactly where its whole part does.
  have hbits : 2 ^ 53 ≤ whole ↔ 2 ^ 53 * 2 ^ e ≤ (num : ℚ) / den := by
    rw [← le_div_iff₀ hpow, ← hscaled, ← hwhole]
    split <;> rw [le_div_iff_cast] <;> push_cast <;> rfl
  have hleft : ∃ f, (if twoTo 53 ≤ whole then e + 1 else e) = f
      ∧ 2 ^ 52 * 2 ^ f ≤ (num : ℚ) / den ∧ (num : ℚ) / den < 2 ^ 53 * 2 ^ f := by
    by_cases hlong : 2 ^ 53 ≤ whole
    · refine ⟨e + 1, if_pos hlong, ?_, ?_⟩
      · have := hbits.mp hlong
        rw [hnext]
        linarith
      · rw [hnext]
        linarith
    · exact ⟨e, if_neg hlong, hlow, lt_of_not_ge fun h => hlong (hbits.mpr h)⟩
  obtain ⟨f, hf, hfull, hbelow⟩ := hleft
  rw [hf]
  rcases le_total leastExponent f with hleast | hleast
  · rw [max_eq_right hleast]
    exact ⟨hleast, hbelow, .inr hfull⟩
  · rw [max_eq_left hleast]
    have hpow : (2 : ℚ) ^ 53 * 2 ^ f ≤ 2 ^ 53 * 2 ^ leastExponent :=
      mul_le_mul_of_nonneg_left (two_zpow_le hleast) (by positivity)
    exact ⟨le_refl _, hbelow.trans_le hpow, .inl rfl⟩

/-- The power of what is too large for a finite number. -/
theorem RoundsTo.large {q : ℚ} {m : ℕ} {e : ℤ} (h : RoundsTo q m e) (he : greatestExponent ≤ e) :
    2 ^ 1000 ≤ q := by
  have hne : e ≠ leastExponent := by
    unfold greatestExponent at he
    unfold leastExponent
    omega
  have hfull : 2 ^ 52 * 2 ^ e ≤ q := h.full.resolve_left hne
  calc (2 : ℚ) ^ 1000 ≤ 2 ^ (52 + 971) := pow_le_pow_right₀ (by norm_num) (by norm_num)
    _ = 2 ^ 52 * 2 ^ greatestExponent := pow_add 2 52 971
    _ ≤ 2 ^ 52 * 2 ^ e := mul_le_mul_of_nonneg_left (two_zpow_le he) (by positivity)
    _ ≤ q := hfull

/-- The standard form of a rounded size is the number nearest to the size. -/
theorem standard_isNearest {q : ℚ} {m : ℕ} {e : ℤ} (h : RoundsTo q m e) :
    (standard false m e).IsNearest q := by
  have hrounds : Rounds q (m * 2 ^ e) := ⟨m, e, h, rfl⟩
  by_cases hcarry : m = 2 ^ 53
  · have hform : standard false m e
        = if greatestExponent < e + 1 then .infinite false else .finite false (2 ^ 52) (e + 1) := by
      subst hcarry
      rfl
    rw [hform]
    split
    · exact .inr ⟨rfl, h.large (by omega)⟩
    · refine .inl ⟨_, hrounds, _, _, _, rfl, nofun, ?_⟩
      rw [hcarry, two_zpow_add]
      push_cast
      ring
  · have hform : standard false m e
        = if m = 0 then zero false
          else if greatestExponent < e then .infinite false else .finite false m e := by
      unfold standard
      rw [if_neg (show ¬ m = twoTo 53 from hcarry)]
    rw [hform]
    split
    · rename_i hzero
      exact .inl ⟨_, hrounds, _, _, _, rfl, nofun, by rw [hzero]; simp⟩
    · split
      · exact .inr ⟨rfl, h.large (by omega)⟩
      · exact .inl ⟨_, hrounds, _, _, _, rfl, nofun, rfl⟩

theorem zero_isSize (negative : Bool) : (zero negative).IsSize 0 :=
  ⟨_, _, _, rfl, fun _ => rfl, by simp⟩

theorem zero_isNearest (negative : Bool) : (zero negative).IsNearest 0 :=
  .inl ⟨0, .zero, zero_isSize negative⟩

/-- A ratio gives the number nearest to it, whatever the sign that a zero is given. -/
theorem ofRatio_isNearest {negative : Bool} {num den : ℕ} (hden : den ≠ 0)
    (hsign : negative = true → num = 0) :
    (ofRatio negative num den).IsNearest ((num : ℚ) / den) := by
  by_cases hnum : num = 0
  · subst hnum
    simpa [ofRatio] using zero_isNearest negative
  · have hsign : negative = false := by
      cases negative with
      | false => rfl
      | true => exact absurd (hsign rfl) hnum
    subst hsign
    obtain ⟨hleast, hbelow, hfull⟩ := exponentFor_spec hnum hden
    have hscaled := scaled_ratio num den (exponentFor num den)
    unfold ofRatio
    rw [if_neg hnum]
    dsimp only
    generalize exponentFor num den = e at *
    refine standard_isNearest ⟨?_, hleast, hbelow, hfull⟩
    rw [← hscaled]
    split
    · exact nearest_roundRatio (Nat.mul_pos (Nat.pos_of_ne_zero hden) (twoTo_pos e))
    · exact nearest_roundRatio (Nat.pos_of_ne_zero hden)

theorem ofScaled_isNearest {negative : Bool} {n : ℕ} {e : ℤ} (hsign : negative = true → n = 0) :
    (ofScaled negative n e).IsNearest (n * 2 ^ e) := by
  unfold ofScaled
  split
  · rename_i he
    have hzero : negative = true → n * twoTo e = 0 := fun hneg => by rw [hsign hneg, Nat.zero_mul]
    have h := ofRatio_isNearest one_ne_zero hzero
    rwa [Nat.cast_one, div_one, Nat.cast_mul, cast_twoTo he] at h
  · rename_i he
    have h := ofRatio_isNearest (twoTo_pos (-e)).ne' hsign
    rwa [cast_twoTo (by omega), zpow_neg, div_inv_eq_mul] at h

theorem ofNat_isNearest (n : ℕ) : (ofNat n).IsNearest n := by
  have h : (ofRatio false n 1).IsNearest ((n : ℚ) / (1 : ℕ)) :=
    ofRatio_isNearest one_ne_zero nofun
  rwa [Nat.cast_one, div_one] at h

/-- Far below the range of infinite numbers the nearest one has the size that the exact one is
    rounded to. -/
theorem IsNearest.isSize {q : ℚ} {x : Binary64} (h : x.IsNearest q) (hq : q ≤ 2 ^ 64) :
    ∃ v, Rounds q v ∧ x.IsSize v := by
  rcases h with h | ⟨-, hlarge⟩
  · exact h
  · have hlt : (2 : ℚ) ^ 64 < 2 ^ 1000 := pow_lt_pow_right₀ (by norm_num) (by norm_num)
    exact absurd (hlarge.trans hq) hlt.not_ge

/-- A natural number of 53 bits is exact. -/
theorem ofNat_isSize {n : ℕ} (h : n < 2 ^ 53) : (ofNat n).IsSize n := by
  have hle : (n : ℚ) ≤ 2 ^ 64 := by exact_mod_cast h.le.trans (by norm_num)
  obtain ⟨v, hv, hsize⟩ := (ofNat_isNearest n).isSize hle
  rwa [hv.eq_of_fits (fits_natCast h)] at hsize

theorem IsSize.nonneg {v : ℚ} {x : Binary64} (h : x.IsSize v) : 0 ≤ v := by
  obtain ⟨negative, m, e, -, -, rfl⟩ := h
  exact mul_nonneg m.cast_nonneg (two_zpow_pos e).le

/-- The significand that a number has for a lesser power. -/
theorem cast_aligned {negative : Bool} {m : ℕ} {e least : ℤ} (hsign : negative = true → m = 0)
    (he : least ≤ e) : (aligned negative m e least : ℚ) = m * 2 ^ e / 2 ^ least := by
  have hsize : ((m * twoTo (e - least) : ℕ) : ℚ) = m * 2 ^ e / 2 ^ least := by
    rw [Nat.cast_mul, cast_twoTo (by omega), mul_div_assoc, zpow_sub₀ (by norm_num)]
  rw [← hsize]
  cases negative with
  | false => simp [aligned]
  | true => simp [aligned, hsign rfl]

/-- The product of two numbers is the number nearest to the product of their sizes. -/
theorem mul_isNearest {v w : ℚ} {x y : Binary64} (hx : x.IsSize v) (hy : y.IsSize w) :
    (x.mul y).IsNearest (v * w) := by
  obtain ⟨s, m, e, rfl, hs, rfl⟩ := hx
  obtain ⟨t, n, f, rfl, ht, rfl⟩ := hy
  have hprod : (m * 2 ^ e * (n * 2 ^ f) : ℚ) = (m * n : ℕ) * 2 ^ (e + f) := by
    rw [two_zpow_add]
    push_cast
    ring
  rw [hprod]
  refine ofScaled_isNearest fun hsign => ?_
  cases s with
  | true => rw [hs rfl, Nat.zero_mul]
  | false =>
    cases t with
    | true => rw [ht rfl, Nat.mul_zero]
    | false => cases hsign

/-- The sum of two numbers is the number nearest to the sum of their sizes. -/
theorem add_isNearest {v w : ℚ} {x y : Binary64} (hx : x.IsSize v) (hy : y.IsSize w) :
    (x.add y).IsNearest (v + w) := by
  have hnonneg := add_nonneg hx.nonneg hy.nonneg
  obtain ⟨s, m, e, rfl, hs, rfl⟩ := hx
  obtain ⟨t, n, f, rfl, ht, rfl⟩ := hy
  have hm := cast_aligned hs (min_le_left e f)
  have hn := cast_aligned ht (min_le_right e f)
  unfold add
  dsimp only
  generalize min e f = least at *
  generalize hsum : aligned s m e least + aligned t n f least = sum
  have hpow := two_zpow_pos least
  have hcast : (sum : ℚ) = (m * 2 ^ e + n * 2 ^ f) / 2 ^ least := by
    rw [← hsum, Int.cast_add, hm, hn, add_div]
  have htotal : (m * 2 ^ e + n * 2 ^ f : ℚ) = sum * 2 ^ least := by
    rw [hcast, div_mul_cancel₀ _ hpow.ne']
  rw [htotal]
  split
  · rename_i hzero
    rw [hzero, Int.cast_zero, zero_mul]
    exact zero_isNearest _
  · have hsum_nonneg : 0 ≤ sum := by
      have : (0 : ℚ) ≤ sum := by
        rw [hcast]
        exact div_nonneg hnonneg hpow.le
      exact_mod_cast this
    have habs : ((sum.natAbs : ℕ) : ℚ) = sum := by
      rw [Nat.cast_natAbs, abs_of_nonneg hsum_nonneg]
    rw [← habs]
    exact ofScaled_isNearest fun hsign => absurd (of_decide_eq_true hsign) hsum_nonneg.not_gt

theorem lt_iff {v w : ℚ} {x y : Binary64} (hx : x.IsSize v) (hy : y.IsSize w) :
    x.lt y = true ↔ v < w := by
  obtain ⟨s, m, e, rfl, hs, rfl⟩ := hx
  obtain ⟨t, n, f, rfl, ht, rfl⟩ := hy
  have hm := cast_aligned hs (min_le_left e f)
  have hn := cast_aligned ht (min_le_right e f)
  unfold lt
  dsimp only
  rw [decide_eq_true_iff, ← Int.cast_lt (R := ℚ), hm, hn,
    div_lt_div_iff_of_pos_right (two_zpow_pos _)]

theorem lesser_isSize {v w : ℚ} {x y : Binary64} (hx : x.IsSize v) (hy : y.IsSize w) :
    (x.lesser y).IsSize (min v w) := by
  have hx_ne : x ≠ .nan := by
    obtain ⟨s, m, e, rfl, -⟩ := hx
    exact nofun
  have hy_ne : y ≠ .nan := by
    obtain ⟨s, m, e, rfl, -⟩ := hy
    exact nofun
  unfold lesser
  rw [if_neg hx_ne, if_neg hy_ne]
  split
  · rename_i h
    rwa [min_eq_right ((lt_iff hy hx).mp h).le]
  · rename_i h
    rwa [min_eq_left (le_of_not_gt fun hlt => h ((lt_iff hy hx).mpr hlt))]

/-- An infinite number is not the lesser one. -/
theorem lesser_infinite {w : ℚ} {y : Binary64} (hy : y.IsSize w) :
    (infinite false).lesser y = y := by
  obtain ⟨s, m, e, rfl, -⟩ := hy
  simp [lesser, lt]

/-- A product with an infinite number is infinite, or undefined and does not count. -/
theorem lesser_mul_infinite {v w : ℚ} {x y : Binary64} (hx : x.IsSize v) (hy : y.IsSize w) :
    (x.mul (infinite false)).lesser y = y := by
  obtain ⟨s, m, e, rfl, hs, -⟩ := hx
  unfold mul
  by_cases hm : m = 0
  · simp [hm, lesser]
  · have hs : s = false := by
      cases s with
      | false => rfl
      | true => exact absurd (hs rfl) hm
    simpa [hm, hs] using lesser_infinite hy

/-- The nearest integer to the size of a number times a factor. -/
theorem roundTimes?_eq {v : ℚ} {x : Binary64} (hx : x.IsSize v) (factor : ℕ) :
    ∃ n, x.roundTimes? factor = some n ∧ Nearest n (v * factor) := by
  obtain ⟨s, m, e, rfl, hsign, rfl⟩ := hx
  have hform : (finite s m e).roundTimes? factor
      = if 0 ≤ e then some (m * twoTo e * factor)
        else some (roundRatio (m * factor) (twoTo (-e))) := by
    unfold roundTimes?
    cases s with
    | false => rfl
    | true => rw [hsign rfl]; rfl
  rw [hform]
  split
  · rename_i he
    refine ⟨_, rfl, ?_⟩
    have hsize : (m * 2 ^ e * factor : ℚ) = (m * twoTo e * factor : ℕ) := by
      rw [Nat.cast_mul, Nat.cast_mul, cast_twoTo he]
    rw [hsize]
    exact nearest_self _
  · rename_i he
    refine ⟨_, rfl, ?_⟩
    have hsize : (m * 2 ^ e * factor : ℚ) = (m * factor : ℕ) / (twoTo (-e) : ℕ) := by
      rw [cast_twoTo (by omega), zpow_neg, div_inv_eq_mul]
      push_cast
      ring
    rw [hsize]
    exact nearest_roundRatio (twoTo_pos _)

end Binary64

namespace Duration

open Binary64

theorem perSecond_pos : (0 : ℚ) < perSecond := by
  norm_num [perSecond]

/-- A part of a second, as a number of seconds: it is no more than one of them, and is rounded by
    half of its last bit at most. -/
theorem fraction_isSize {r : ℕ} (hr : (r : ℚ) / perSecond ≤ 1) :
    ∃ b, (ofRatio false r perSecond).IsSize b ∧ b ≤ 1 ∧ (r = 0 → b = 0)
      ∧ |b - r / perSecond| ≤ 2 ^ (-54 : ℤ) := by
  have hper : perSecond ≠ 0 := by decide
  have hone : Fits 1 := by simpa using fits_natCast (n := 1) (by norm_num)
  have hnearest : (ofRatio false r perSecond).IsNearest ((r : ℚ) / perSecond) :=
    ofRatio_isNearest hper nofun
  obtain ⟨b, hb, hsize⟩ := hnearest.isSize (hr.trans (by norm_num))
  have hnear := hb.near (k := 0) (by simpa using hr) (by norm_num)
  refine ⟨b, hsize, hb.le hone hr, fun hzero => ?_, hnear⟩
  have hfits : Fits ((r : ℚ) / perSecond) := by
    simpa [hzero] using fits_natCast (n := 0) (by norm_num)
  rw [hb.eq_of_fits hfits, hzero, Nat.cast_zero, zero_div]

/-- A span of up to a power of two of seconds: its seconds are no more than those, and they are
    rounded by half of the last bits of the sum and of the fraction at most. -/
theorem seconds_isSize {d : Duration} {k : ℕ} (hk : k < 53)
    (hd : d.nanoseconds ≤ 2 ^ k * perSecond) :
    ∃ v, d.seconds.IsSize v ∧ Fits v ∧ v ≤ 2 ^ k
      ∧ |v - d.nanoseconds / perSecond| ≤ 2 ^ (k - 54 : ℤ) + 2 ^ (-54 : ℤ) := by
  have hper : 0 < perSecond := by decide
  obtain ⟨hparts, hfraction⟩ := ratio_parts d.nanoseconds hper
  have hwhole := Nat.div_add_mod d.nanoseconds perSecond
  unfold seconds
  generalize d.nanoseconds / perSecond = s at *
  generalize d.nanoseconds % perSecond = r at *
  have hs : s ≤ 2 ^ k := by
    refine Nat.le_of_mul_le_mul_left ?_ hper
    rw [Nat.mul_comm perSecond (2 ^ k)]
    omega
  -- The whole seconds are exact.
  have hsize_s : (ofNat s).IsSize s :=
    ofNat_isSize (hs.trans_lt (Nat.pow_lt_pow_right (by decide) hk))
  obtain ⟨b, hsize_b, hb_le, hb_zero, hb_near⟩ := fraction_isSize hfraction.le
  have hsum : (s : ℚ) + b ≤ 2 ^ k := by
    rcases Nat.lt_or_eq_of_le hs with hlt | rfl
    · have : (s : ℚ) + 1 ≤ 2 ^ k := by exact_mod_cast hlt
      linarith
    · -- A span of all the seconds has no fraction.
      have hr : r = 0 := by
        rw [Nat.mul_comm] at hwhole
        omega
      simp [hb_zero hr]
  have hlimit : (2 : ℚ) ^ k ≤ 2 ^ 64 := pow_le_pow_right₀ (by norm_num) (by omega)
  have hfits : Fits (2 ^ k) := by
    simpa using fits_two_zpow (e := k) (by unfold leastExponent; omega)
  obtain ⟨v, hv, hsize⟩ := (add_isNearest hsize_s hsize_b).isSize (hsum.trans hlimit)
  refine ⟨v, hsize, hv.fits, hv.le hfits hsum, ?_⟩
  have hv_near : |v - (s + b)| ≤ 2 ^ (k - 54 : ℤ) :=
    hv.near (by simpa using hsum) (by omega)
  rw [hparts]
  calc |v - (s + r / perSecond)| = |v - (s + b) + (b - r / perSecond)| := by ring_nf
    _ ≤ |v - (s + b)| + |b - r / perSecond| := abs_add_le _ _
    _ ≤ 2 ^ (k - 54 : ℤ) + 2 ^ (-54 : ℤ) := add_le_add hv_near hb_near

theorem nearest_of_ofSeconds? {v : ℚ} {x : Binary64} {d : Duration} (hx : x.IsSize v)
    (hd : ofSeconds? x = some d) : Nearest d.nanoseconds (v * perSecond) := by
  obtain ⟨n, hn, hnearest⟩ := roundTimes?_eq hx perSecond
  simp only [ofSeconds?, hn, Option.ite_none_right_eq_some, Option.some.injEq] at hd
  rw [← hd.2]
  exact hnearest

/-- A number of seconds that is not below zero is a span, unless it is too large. -/
theorem exists_ofSeconds?_eq {v : ℚ} {x : Binary64} (hx : x.IsSize v) (hv : v ≤ 2 ^ 63) :
    ∃ d, ofSeconds? x = some d := by
  obtain ⟨n, hn, hnearest⟩ := roundTimes?_eq hx perSecond
  have hle : n ≤ 2 ^ 63 * perSecond := by
    refine hnearest.le_of_le ?_
    push_cast
    exact mul_le_mul_of_nonneg_right hv perSecond_pos.le
  have hlt : n < 18446744073709551616 * perSecond := hle.trans_lt (by decide)
  exact ⟨⟨n⟩, by simp only [ofSeconds?, hn, if_pos hlt]⟩

/-- A whole number of seconds bounds the span of any fewer. -/
theorem ofSeconds?_le {v : ℚ} {x : Binary64} {d : Duration} {n : ℕ} (hx : x.IsSize v)
    (hd : ofSeconds? x = some d) (h : v ≤ n) : d.nanoseconds ≤ n * perSecond := by
  refine (nearest_of_ofSeconds? hx hd).le_of_le ?_
  rw [Nat.cast_mul]
  exact mul_le_mul_of_nonneg_right h perSecond_pos.le

/-- More seconds give no shorter span. -/
theorem ofSeconds?_mono {v w : ℚ} {x y : Binary64} {d e : Duration} (hx : x.IsSize v)
    (hy : y.IsSize w) (hd : ofSeconds? x = some d) (he : ofSeconds? y = some e) (h : v ≤ w) :
    d.nanoseconds ≤ e.nanoseconds :=
  (nearest_of_ofSeconds? hx hd).mono (nearest_of_ofSeconds? hy he)
    (mul_le_mul_of_nonneg_right h perSecond_pos.le)

theorem ofSeconds?_congr {v : ℚ} {x y : Binary64} (hx : x.IsSize v) (hy : y.IsSize v) :
    ofSeconds? x = ofSeconds? y := by
  obtain ⟨n, hn, hnear⟩ := roundTimes?_eq hx perSecond
  obtain ⟨m, hm, hnear'⟩ := roundTimes?_eq hy perSecond
  have hsame : n = m := Nat.le_antisymm (hnear.mono hnear' le_rfl) (hnear'.mono hnear le_rfl)
  rw [ofSeconds?, ofSeconds?, hn, hm, hsame]

/-- A span of up to `2 ^ 23` seconds is the span of its seconds: their rounding is less than half a
    nanosecond. -/
theorem ofSeconds?_seconds {d : Duration} (hd : d.nanoseconds ≤ 2 ^ 23 * perSecond) :
    ofSeconds? d.seconds = some d := by
  obtain ⟨v, hv, -, hle, hnear⟩ := seconds_isSize (by norm_num) hd
  have hhalf : |v * perSecond - d.nanoseconds| < 1 / 2 := by
    have hscaled : v * perSecond - d.nanoseconds = (v - d.nanoseconds / perSecond) * perSecond := by
      rw [sub_mul, div_mul_cancel₀ _ perSecond_pos.ne']
    rw [hscaled, abs_mul, abs_of_pos perSecond_pos]
    calc |v - d.nanoseconds / perSecond| * perSecond
        ≤ (2 ^ ((23 : ℕ) - 54 : ℤ) + 2 ^ (-54 : ℤ)) * perSecond :=
          mul_le_mul_of_nonneg_right hnear perSecond_pos.le
      _ < 1 / 2 := by norm_num [perSecond]
  obtain ⟨e, he⟩ := exists_ofSeconds?_eq hv (hle.trans (by norm_num))
  have hexact : e.nanoseconds = d.nanoseconds := (nearest_of_ofSeconds? hv he).eq_of_near hhalf
  rw [he, Option.some.injEq]
  cases d
  cases e
  exact congrArg Duration.mk hexact

end Duration

end MachineDriver
