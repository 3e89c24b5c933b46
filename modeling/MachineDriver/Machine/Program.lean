import MachineDriver.Api.VirtualMachine
import MachineDriver.Machine.Credentials
import MachineDriver.Number.Duration

set_option autoImplicit false

/-!
# Programs

An operation on a machine is a program: a tree that asks the world outside one call at a time and
goes on with the answer. It ends with a value, or it crashes. What answers the calls is left open;
it may be one cluster that nobody else uses, or a cluster that others change between any two calls.
-/

namespace MachineDriver

/-- A call to the world outside. -/
inductive Call where
  /-- The namespace of the machines that the credentials give access to. -/
  | client (credentials : Credentials)
  /-- The version of the cluster. -/
  | serverVersion (credentials : Credentials)
  | getVirtualMachine (ns name : String)
  | listVirtualMachines (ns : String) (labels : TextMap String)
  | createVirtualMachine (vm : VirtualMachine)
  /-- Sets whether a machine is to run, if it still has the given version. -/
  | setRunning (ns name : String) (version : Option String) (running : Bool)
  | deleteVirtualMachine (ns name : String)
  | getDataVolume (ns name : String)
  | createSecret (secret : Secret)
  /-- The seconds that have passed since the beginning of 1970. -/
  | now
  | sleep (duration : Duration)
  deriving Repr, Inhabited

/-- What is answered to a call. The clock is never taken to show a time before 1970. -/
def Call.Answer : Call → Type
  | .client _ => Except DriverError String
  | .serverVersion _ => Except DriverError String
  | .getVirtualMachine .. => Except StoreError VirtualMachine
  | .listVirtualMachines .. => Except StoreError (List VirtualMachine)
  | .createVirtualMachine _ => Except StoreError VirtualMachine
  | .setRunning .. => Except StoreError VirtualMachine
  | .deleteVirtualMachine .. => Except StoreError Unit
  | .getDataVolume .. => Except StoreError DataVolume
  | .createSecret _ => Except StoreError Secret
  | .now => Nat
  | .sleep _ => Unit

/-- Whether a call may change the cluster. -/
def Call.isMutating : Call → Bool
  | .createVirtualMachine _ => true
  | .setRunning .. => true
  | .deleteVirtualMachine .. => true
  | .createSecret _ => true
  | _ => false

/-- A tree of calls. -/
inductive Program (α : Type) where
  | done (value : α)
  /-- The program ends here without a value. -/
  | crash
  | ask (call : Call) (next : call.Answer → Program α)

namespace Program

variable {α β γ : Type}

/-- Goes on with the value of a program. -/
def bind : Program α → (α → Program β) → Program β
  | .done v, f => f v
  | .crash, _ => .crash
  | .ask c next, f => .ask c fun a => (next a).bind f

instance : Monad Program where
  pure := .done
  bind := bind

/-- The program of a single call. -/
def call (c : Call) : Program c.Answer :=
  .ask c .done

/-- The value of a program whose calls are answered by a state that they may change. A program that
crashes has none. -/
def run {σ : Type} (answer : (c : Call) → σ → c.Answer × σ) : Program α → σ → Option α × σ
  | .done v, s => (some v, s)
  | .crash, s => (none, s)
  | .ask c next, s =>
    let (a, s) := answer c s
    (next a).run answer s

/-! ## Laws -/

@[simp] theorem pure_bind (v : α) (f : α → Program β) : (pure v >>= f : Program β) = f v := rfl

@[simp] theorem crash_bind (f : α → Program β) : (Program.crash >>= f) = .crash := rfl

@[simp] theorem ask_bind (c : Call) (next : c.Answer → Program α) (f : α → Program β) :
    (Program.ask c next >>= f) = .ask c fun a => next a >>= f := rfl

@[simp] theorem call_bind (c : Call) (f : c.Answer → Program β) :
    (call c >>= f) = .ask c f := rfl

theorem bind_pure (p : Program α) : p >>= pure = p := by
  induction p with
  | done v => rfl
  | crash => rfl
  | ask c next ih => exact congrArg (Program.ask c) (funext ih)

theorem bind_assoc (p : Program α) (f : α → Program β) (g : β → Program γ) :
    p >>= f >>= g = p >>= fun v => f v >>= g := by
  induction p with
  | done v => rfl
  | crash => rfl
  | ask c next ih => exact congrArg (Program.ask c) (funext ih)

/-- A run of a sequence is a run of its first part and then, if this has a value, of the rest. -/
theorem run_bind {σ : Type} (answer : (c : Call) → σ → c.Answer × σ) (p : Program α)
    (f : α → Program β) (s : σ) :
    (p >>= f).run answer s = match p.run answer s with
      | (some v, t) => (f v).run answer t
      | (none, t) => (none, t) := by
  induction p generalizing s with
  | done v => rfl
  | crash => rfl
  | ask c next ih => exact ih _ _

end Program

end MachineDriver
