import MachineDriver.Cluster.StoreError
import MachineDriver.Number.Duration

set_option autoImplicit false

/-!
# Retrying after conflicts

An update that meets a conflict is tried again, a bounded number of times and with growing pauses.
Any other outcome ends the attempts at once. The lengths of pauses are computed as floating point
numbers, and attempts crash where one of these is no span of time.
-/

namespace MachineDriver

/-- How often an update is tried, and how long the pauses are. -/
structure RetryPolicy where
  attempts : UInt32 := 4
  /-- The first pause. -/
  initialDelay : Duration := .ofMilliseconds 10
  /-- What later pauses grow up to. -/
  maxDelay : Duration := .ofMilliseconds 1000
  /-- By what a pause is multiplied to give the next one. -/
  multiplier : Binary64 := Binary64.ofNat 5
  /-- The share by which the pause after an attempt is lengthened, drawn anew for each. There is
  none if it is to be drawn from no numbers at all. -/
  jitter : Nat → Option Binary64 := fun _ => some (Binary64.zero false)

namespace RetryPolicy

/-- The usual policy with another number of attempts, of which there is always one. -/
def ofAttempts (n : UInt32) : RetryPolicy :=
  { attempts := if n = 0 then 1 else n }

/-- The pause after an attempt when the delay has grown to some length. -/
def pause (p : RetryPolicy) (attempt : Nat) (delay : Duration) : Option Duration :=
  match p.jitter attempt with
  | some share => Duration.ofSeconds? (delay.seconds.mul ((Binary64.ofNat 1).add share))
  | none => none

/-- The delay that follows a delay. -/
def nextDelay (p : RetryPolicy) (delay : Duration) : Option Duration :=
  Duration.ofSeconds? ((delay.seconds.mul p.multiplier).lesser p.maxDelay.seconds)

/-- How many attempts may follow the first. -/
def retries (p : RetryPolicy) : Nat :=
  p.attempts.toNat - 1

variable {m : Type → Type} [Monad m] {α : Type}

/-- Makes the attempt of a number, and as many more as may follow. -/
def attemptFrom (p : RetryPolicy) (crash : m (Except StoreError α)) (sleep : Duration → m Unit)
    (attempt : Nat → m (Except StoreError α)) : Nat → Nat → Duration → m (Except StoreError α)
  | 0, n, _ => attempt n
  | left + 1, n, delay => do
    match ← attempt n with
    -- Only a conflict can be overcome by reading anew.
    | .error (.conflict _) =>
      match p.pause n delay with
      | none => crash
      | some d =>
        sleep d
        match p.nextDelay delay with
        | none => crash
        | some grown => attemptFrom p crash sleep attempt left (n + 1) grown
    | outcome => return outcome

/-- Makes attempts, numbered from one, until one does not meet a conflict or no more are allowed. -/
def run (p : RetryPolicy) (crash : m (Except StoreError α)) (sleep : Duration → m Unit)
    (attempt : Nat → m (Except StoreError α)) : m (Except StoreError α) :=
  p.attemptFrom crash sleep attempt p.retries 1 p.initialDelay

end RetryPolicy

end MachineDriver
