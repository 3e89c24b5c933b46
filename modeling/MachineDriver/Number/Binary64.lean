import MachineDriver.Number.Power

set_option autoImplicit false

/-!
# Binary floating point

Numbers with a significand of 53 bits, as exact values. Every operation is carried out exactly and
its result is rounded once, to the nearest number and to the even one of two; `ofScaled` and
`ofRatio` are the only places that round.
-/

namespace MachineDriver

/-- A number of binary floating point. A finite one is its significand times a power of two; the
significand has 53 bits, or fewer where the power is the least one. -/
inductive Binary64 where
  | finite (negative : Bool) (significand : Nat) (exponent : Int)
  | infinite (negative : Bool)
  | nan
  deriving DecidableEq, Repr, Inhabited

namespace Binary64

/-- The least power of two that a significand is multiplied by. -/
def leastExponent : Int := -1074

/-- The greatest power of two that a significand is multiplied by. -/
def greatestExponent : Int := 971

/-- The zero of a sign. -/
def zero (negative : Bool) : Binary64 :=
  .finite negative 0 leastExponent

/-- The integer nearest to a ratio, and of two the even one. -/
def roundRatio (num den : Nat) : Nat :=
  let q := num / den
  let r := num % den
  if 2 * r < den then q
  else if den < 2 * r then q + 1
  else if q % 2 = 0 then q else q + 1

/-- A significand of at most 53 bits, or the power of two above, put into its standard form. -/
def standard (negative : Bool) (significand : Nat) (exponent : Int) : Binary64 :=
  -- Rounding up may have carried into one bit more.
  let (significand, exponent) :=
    if significand = twoTo 53 then (twoTo 52, exponent + 1) else (significand, exponent)
  if significand = 0 then zero negative
  else if greatestExponent < exponent then .infinite negative
  else .finite negative significand exponent

/-- The power of two by which a ratio of this size is divided, so that 53 bits are left of it. -/
def exponentFor (num den : Nat) : Int :=
  -- Divided by this power the ratio has 53 or 54 bits.
  let e : Int := num.log2 - den.log2 - 53
  let whole :=
    if 0 ≤ e then num / (den * twoTo e) else num * twoTo (-e) / den
  max leastExponent (if twoTo 53 ≤ whole then e + 1 else e)

/-- The number nearest to a ratio with a sign. -/
def ofRatio (negative : Bool) (num den : Nat) : Binary64 :=
  if num = 0 then zero negative
  else
    let e := exponentFor num den
    let significand :=
      if 0 ≤ e then roundRatio num (den * twoTo e) else roundRatio (num * twoTo (-e)) den
    standard negative significand e

/-- The number nearest to an integer times a power of two. -/
def ofScaled (negative : Bool) (n : Nat) (exponent : Int) : Binary64 :=
  if 0 ≤ exponent then ofRatio negative (n * twoTo exponent) 1
  else ofRatio negative n (twoTo (-exponent))

/-- The number nearest to a natural number. -/
def ofNat (n : Nat) : Binary64 :=
  ofRatio false n 1

/-- The number nearest to digits times a power of ten. Powers that leave the range whatever the
digits are need not be computed. -/
def ofDecimal (negative : Bool) (digits : Nat) (exponent : Int) : Binary64 :=
  if digits = 0 then zero negative
  else if 400 < exponent then .infinite negative
  else if exponent + digits.log2 < -400 then zero negative
  else if 0 ≤ exponent then ofRatio negative (digits * tenTo exponent) 1
  else ofRatio negative digits (tenTo (-exponent))

/-! ## Arithmetic -/

/-- Whether a number is neither infinite nor undefined. -/
def isFinite : Binary64 → Bool
  | .finite .. => true
  | _ => false

/-- The product of two numbers. -/
def mul : Binary64 → Binary64 → Binary64
  | .finite s m e, .finite s' m' e' => ofScaled (s != s') (m * m') (e + e')
  | .infinite s, .infinite s' => .infinite (s != s')
  | .infinite s, .finite s' m _ => if m = 0 then .nan else .infinite (s != s')
  | .finite s m _, .infinite s' => if m = 0 then .nan else .infinite (s != s')
  | _, _ => .nan

/-- A significand with its sign, for a power of two not above its own. -/
def aligned (negative : Bool) (significand : Nat) (exponent least : Int) : Int :=
  let n : Int := significand * twoTo (exponent - least)
  if negative then -n else n

/-- The sum of two numbers. -/
def add : Binary64 → Binary64 → Binary64
  | .finite s m e, .finite s' m' e' =>
    let least := min e e'
    let sum := aligned s m e least + aligned s' m' e' least
    if sum = 0 then zero (s && s') else ofScaled (sum < 0) sum.natAbs least
  | .infinite s, .infinite s' => if s = s' then .infinite s else .nan
  | .infinite s, .finite .. => .infinite s
  | .finite .., .infinite s => .infinite s
  | _, _ => .nan

/-- Whether a number is below another. -/
def lt : Binary64 → Binary64 → Bool
  | .finite s m e, .finite s' m' e' =>
    let least := min e e'
    aligned s m e least < aligned s' m' e' least
  | .infinite s, .infinite s' => s && !s'
  | .infinite s, .finite .. => s
  | .finite .., .infinite s => !s
  | _, _ => false

/-- The lesser of two numbers; one that is undefined does not count. -/
def lesser (a b : Binary64) : Binary64 :=
  if a = .nan then b
  else if b = .nan then a
  else if lt b a then b else a

/-- The integer nearest to a finite number times a factor, if the number is not below zero. -/
def roundTimes? (factor : Nat) : Binary64 → Option Nat
  | .finite negative m e =>
    if negative && m != 0 then none
    else if 0 ≤ e then some (m * twoTo e * factor)
    else some (roundRatio (m * factor) (twoTo (-e)))
  | _ => none

end Binary64

end MachineDriver
