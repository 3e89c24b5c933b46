import MachineDriver.Cluster.Store
import MachineDriver.Machine.Program

set_option autoImplicit false

/-!
# The world of a program

A cluster that answers the calls of programs, with versions and identities that are counted, and the
faults that are planned for some of its answers: a call may fail, be answered with something else
than what is stored, or come after someone else has changed or removed the machine that it is about.
-/

namespace MachineDriver

/-- What happens at a call instead of, or before, its normal answer. -/
inductive Fault (α : Type) where
  /-- The call fails. -/
  | fail (error : StoreError)
  /-- The call is answered with a value, whatever is stored. -/
  | reply (value : α)
  /-- The machine of the call is written by someone else before. -/
  | touch
  /-- The machine of the call is removed before, but not its secrets. -/
  | vanish
  deriving Repr, Inhabited

/-- The faults of one kind of call, in order; a call for which nothing is planned is normal. -/
abbrev Schedule (φ : Type) := List (Option φ)

/-- The faults of all calls. -/
structure Faults where
  client : Schedule (Except DriverError String) := []
  serverVersion : Schedule (Except DriverError String) := []
  getMachine : Schedule (Fault VirtualMachine) := []
  listMachines : Schedule (Fault (List VirtualMachine)) := []
  createMachine : Schedule (Fault VirtualMachine) := []
  setRunning : Schedule (Fault VirtualMachine) := []
  deleteMachine : Schedule (Fault Unit) := []
  getVolume : Schedule (Fault DataVolume) := []
  createSecret : Schedule (Fault Secret) := []

/-- What a program finds outside: a cluster with its version, the namespace of clients, the time,
the faults to come, and the calls that were made, the last first. -/
structure World where
  cluster : Cluster := {}
  /-- The version of a machine that was given last. -/
  revision : Nat := 1000
  /-- The number of machines that were created. -/
  identities : Nat := 0
  ns : String := "default"
  version : String := "v1.28.2"
  seconds : Nat := 0
  faults : Faults := {}
  calls : List Call := []

namespace World

variable {α : Type}

/-- The next fault of a schedule and the rest of it. -/
def next {φ : Type} : Schedule φ → Option φ × Schedule φ
  | [] => (none, [])
  | f :: rest => (f, rest)

/-- The text of a number. -/
def numeral (n : Nat) : String :=
  String.ofList (Text.decimal n)

/-- The version that is given next. -/
def nextVersion (w : World) : String :=
  numeral (w.revision + 1)

/-- The identity of the machine that is created after a number of others. -/
def identity (n : Nat) : String :=
  "uid-" ++ numeral (n + 1)

/-- What a call finds that is disturbed by a fault, given the namespace and the name of the machine
that it is about. -/
def disturbed (fault : Option (Fault α)) (key : Option (String × String)) (w : World) : World :=
  match fault, key with
  | some .touch, some (ns, name) =>
    { w with cluster := w.cluster.touch w.nextVersion ns name, revision := w.revision + 1 }
  | some .touch, none => { w with revision := w.revision + 1 }
  | some .vanish, some (ns, name) => { w with cluster := w.cluster.dropMachine ns name }
  | _, _ => w

/-- What the cluster answers, and what it becomes. -/
def ask (w : World) (f : Cluster → Except StoreError α × Cluster) : Except StoreError α × World :=
  ((f w.cluster).1, { w with cluster := (f w.cluster).2 })

/-- Creates a machine with the next identity and the next version. -/
def createMachine (w : World) (vm : VirtualMachine) : Except StoreError VirtualMachine × World :=
  match w.ask fun c => c.createMachine (identity w.identities) w.nextVersion vm with
  | (.ok vm, w) =>
    (.ok vm, { w with revision := w.revision + 1, identities := w.identities + 1 })
  | refused => refused

/-- Sets whether a machine is to run and gives it the next version. -/
def setRunning (w : World) (ns name : String) (expected : Option String) (running : Bool) :
    Except StoreError VirtualMachine × World :=
  match w.ask fun c => c.setRunning w.nextVersion ns name expected running with
  | (.ok vm, w) => (.ok vm, { w with revision := w.revision + 1 })
  | refused => refused

/-- Answers a call with a fault, if there is one, or as the cluster does. -/
def answerWith (fault : Option (Fault α)) (key : Option (String × String))
    (normal : World → Except StoreError α × World) (w : World) : Except StoreError α × World :=
  match fault with
  | some (.fail e) => (.error e, w)
  | some (.reply v) => (.ok v, w)
  | fault => normal (disturbed fault key w)

/-- Answers a call about the access to the cluster. -/
def accessWith (fault : Option (Except DriverError String)) (normal : String) (w : World) :
    Except DriverError String × World :=
  (fault.getD (.ok normal), w)

/-- Answers a call. The time and pauses are not kept among the calls. -/
def answer (call : Call) (w : World) : call.Answer × World :=
  let logged : World := { w with calls := call :: w.calls }
  let fs := w.faults
  match call with
  | .now => (w.seconds, w)
  | .sleep _ => ((), w)
  | .client _ =>
    let (f, rest) := next fs.client
    accessWith f w.ns { logged with faults := { fs with client := rest } }
  | .serverVersion _ =>
    let (f, rest) := next fs.serverVersion
    accessWith f w.version { logged with faults := { fs with serverVersion := rest } }
  | .getVirtualMachine ns name =>
    let (f, rest) := next fs.getMachine
    answerWith f (some (ns, name)) (fun w => (w.cluster.getMachine ns name, w))
      { logged with faults := { fs with getMachine := rest } }
  | .listVirtualMachines ns labels =>
    let (f, rest) := next fs.listMachines
    answerWith f none (fun w => (.ok (w.cluster.listMachines ns labels), w))
      { logged with faults := { fs with listMachines := rest } }
  | .createVirtualMachine vm =>
    let (f, rest) := next fs.createMachine
    answerWith f (some vm.metadata.key) (fun w => w.createMachine vm)
      { logged with faults := { fs with createMachine := rest } }
  | .setRunning ns name version running =>
    let (f, rest) := next fs.setRunning
    answerWith f (some (ns, name)) (fun w => w.setRunning ns name version running)
      { logged with faults := { fs with setRunning := rest } }
  | .deleteVirtualMachine ns name =>
    let (f, rest) := next fs.deleteMachine
    answerWith f (some (ns, name)) (fun w => w.ask fun c => c.deleteMachine ns name)
      { logged with faults := { fs with deleteMachine := rest } }
  | .getDataVolume ns name =>
    let (f, rest) := next fs.getVolume
    answerWith f none (fun w => (w.cluster.getVolume ns name, w))
      { logged with faults := { fs with getVolume := rest } }
  | .createSecret secret =>
    let (f, rest) := next fs.createSecret
    answerWith f none (fun w => w.ask fun c => c.createSecret secret)
      { logged with faults := { fs with createSecret := rest } }

/-- A world in which no call has been made yet. -/
def forgetCalls (w : World) : World :=
  { w with calls := [] }

end World

end MachineDriver
