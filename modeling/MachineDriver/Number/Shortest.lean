import MachineDriver.Number.Binary64
import MachineDriver.Text.Decimal

set_option autoImplicit false

/-!
# Shortest decimals

The decimal with the fewest digits among those that round to a given floating point number, and of
these the nearest. Numbers are written positionally while the point stays within sixteen digits, and
with a power of ten otherwise.
-/

namespace MachineDriver.Binary64

/-- Four times the ends of the interval of numbers that round to a significand at a power of two,
and four times the significand, in units of that power. -/
structure Interval where
  low : Nat
  middle : Nat
  high : Nat
  /-- Whether the ends belong to the interval. -/
  closed : Bool

/-- The interval of a significand. Below a power of two the numbers are twice as dense. -/
def interval (significand : Nat) (exponent : Int) : Interval :=
  let below := if significand = twoTo 52 ∧ leastExponent < exponent then 1 else 2
  { low := 4 * significand - below
    middle := 4 * significand
    high := 4 * significand + 2
    closed := significand % 2 = 0 }

/-- Compares `a · 2^e` with `b · 10^t`. -/
def compareScaled (a : Nat) (e : Int) (b : Nat) (t : Int) : Ordering :=
  compare (a * twoTo e * tenTo (-t)) (b * twoTo (-e) * tenTo t)

/-- Whether `d · 10^t` lies in an interval whose unit is `2^e`. -/
def Interval.holds (i : Interval) (e : Int) (d : Nat) (t : Int) : Bool :=
  let low := compareScaled i.low e d t
  let high := compareScaled i.high e d t
  (low == .lt || (i.closed && low == .eq)) && (high == .gt || (i.closed && high == .eq))

/-- The greatest `d` for which `d · 10^t` is at most `n · 2^e`. -/
def floorScaled (n : Nat) (e t : Int) : Nat :=
  (n * twoTo e * tenTo (-t)) / (twoTo (-e) * tenTo t)

/-- The one of two neighbours on a decimal grid that lies in the interval, and of both the nearer
one or, at equal distance, the even one. -/
def Interval.onGrid? (i : Interval) (e t : Int) : Option Nat :=
  -- If any point of the grid lies in the interval, one of these two neighbours does.
  let d := floorScaled i.middle e t
  match i.holds e d t, i.holds e (d + 1) t with
  | true, true =>
    match compareScaled (2 * i.middle) e (2 * d + 1) t with
    | .lt => some d
    | .gt => some (d + 1)
    | .eq => some (if d % 2 = 0 then d else d + 1)
  | true, false => some d
  | false, true => some (d + 1)
  | false, false => none

/-- The first decimal found on grids that become finer, within a number of steps. -/
def Interval.search (i : Interval) (e : Int) : Nat → Int → Nat × Int
  | 0, t => (floorScaled i.middle e t, t)
  | steps + 1, t =>
    match i.onGrid? e t with
    | some d => if d = 0 then i.search e steps (t - 1) else (d, t)
    | none => i.search e steps (t - 1)

/-- An upper bound of the decimal exponent of `n · 2^e`, off by at most two. -/
def decimalBound (n : Nat) (e : Int) : Int :=
  (((n.log2 : Int) + e) * 30103) / 100000 + 2

/-- Digits without trailing zeros, within a number of steps. -/
def dropZeros : Nat → Nat → Int → Nat × Int
  | 0, d, t => (d, t)
  | steps + 1, d, t => if d % 10 = 0 then dropZeros steps (d / 10) (t + 1) else (d, t)

/-- The shortest digits of a positive number and the power of ten that they are multiplied by. -/
def shortest (significand : Nat) (exponent : Int) : Nat × Int :=
  -- The interval is kept in quarters, so that its ends are whole.
  let i := interval significand exponent
  let unit := exponent - 2
  let (d, t) := i.search unit 24 (decimalBound i.middle unit)
  dropZeros 24 d t

/-- A power of ten as it is written after the digits. -/
def exponentText (n : Int) : List Char :=
  'e' :: (if n < 0 then '-' :: Text.decimal n.natAbs else Text.decimal n.natAbs)

/-- Digits and a power of ten as a text. -/
def decimalText (digits : Nat) (exponent : Int) : List Char :=
  let ds := Text.decimal digits
  let point := (ds.length : Int) + exponent
  if 0 ≤ exponent ∧ point ≤ 16 then ds ++ List.replicate exponent.toNat '0' ++ ['.', '0']
  else if 0 < point ∧ point ≤ 16 then ds.take point.toNat ++ '.' :: ds.drop point.toNat
  else if -5 < point ∧ point ≤ 0 then
    '0' :: '.' :: (List.replicate (-point).toNat '0' ++ ds)
  else
    match ds with
    | [d] => d :: exponentText (point - 1)
    | d :: rest => d :: '.' :: (rest ++ exponentText (point - 1))
    | [] => []

/-- A finite number as a text; infinite and undefined ones have words of their own elsewhere. -/
def finiteText (negative : Bool) (significand : Nat) (exponent : Int) : List Char :=
  let ds :=
    if significand = 0 then ['0', '.', '0']
    else
      let (d, t) := shortest significand exponent
      decimalText d t
  if negative then '-' :: ds else ds

end MachineDriver.Binary64
