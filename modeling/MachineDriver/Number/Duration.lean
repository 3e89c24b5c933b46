import MachineDriver.Number.Binary64

set_option autoImplicit false

/-!
# Durations

Spans of time in whole nanoseconds, and the seconds that they are as floating point numbers.
-/

namespace MachineDriver

/-- A span of time. -/
structure Duration where
  nanoseconds : Nat
  deriving DecidableEq, Repr, Inhabited

namespace Duration

/-- The number of nanoseconds in a second. -/
def perSecond : Nat := 1000000000

/-- A span of whole milliseconds. -/
def ofMilliseconds (n : Nat) : Duration :=
  ⟨n * 1000000⟩

/-- A span of whole microseconds. -/
def ofMicroseconds (n : Nat) : Duration :=
  ⟨n * 1000⟩

/-- The whole milliseconds of a span. -/
def milliseconds (d : Duration) : Nat :=
  d.nanoseconds / 1000000

/-- The whole microseconds of a span. -/
def microseconds (d : Duration) : Nat :=
  d.nanoseconds / 1000

/-- The seconds of a span: the whole seconds and the fraction are rounded by themselves, and then
their sum. -/
def seconds (d : Duration) : Binary64 :=
  (Binary64.ofNat (d.nanoseconds / perSecond)).add
    (Binary64.ofRatio false (d.nanoseconds % perSecond) perSecond)

/-- The span of a number of seconds, to the nearest nanosecond. A number that is undefined or below
zero is no span of time, nor is one whose whole seconds have more than 64 bits. -/
def ofSeconds? (x : Binary64) : Option Duration :=
  match x.roundTimes? perSecond with
  | some n => if n < 18446744073709551616 * perSecond then some ⟨n⟩ else none
  | none => none

end Duration

end MachineDriver
