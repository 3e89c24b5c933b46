import MachineDriver.Machine.Lifecycle
import MachineDriver.Proofs.Trace

set_option autoImplicit false

/-!
# Which calls the operations make

`Reads` and `CreatesNothing` hold of a program whatever its calls are answered: it writes nothing,
and it creates nothing. A status and a listing only read, and so does all that a creation prepares;
what a creation writes it creates; a deletion and a shutdown create nothing.

All operations but a shutdown, which computes how long it pauses, have a value whatever their calls
are answered. -/

namespace MachineDriver

open Program

/-- Whether a call creates an object. -/
def Call.creates : Call → Bool
  | .createVirtualMachine _ => true
  | .createSecret _ => true
  | _ => false

theorem Call.creates_of_not_isMutating {c : Call} (h : c.isMutating = false) :
    c.creates = false := by
  cases c <;> first | rfl | cases h

namespace Program

variable {α : Type}

/-- A program that writes nothing. -/
abbrev Reads (p : Program α) : Prop :=
  p.MakesOnly fun c => c.isMutating = false

/-- A program that creates nothing. -/
abbrev CreatesNothing (p : Program α) : Prop :=
  p.MakesOnly fun c => c.creates = false

theorem Reads.createsNothing {p : Program α} (h : p.Reads) : p.CreatesNothing :=
  h.mono fun _ => Call.creates_of_not_isMutating

end Program

/-! ## Reading -/

theorem getMachine_reads (ns name : String) : (getMachine ns name).Reads := by
  unfold getMachine
  refine .bind (.call rfl) fun answer => ?_
  split <;> exact .pure _

/-- What reading a machine asks and gives. -/
theorem runs_getMachine_iff {ns name : String} {events : List Event}
    {outcome : Outcome VirtualMachine} :
    (getMachine ns name).Runs events outcome
      ↔ (∃ vm, events = [⟨.getVirtualMachine ns name, .ok vm⟩] ∧ outcome = .ok vm)
        ∨ (events = [⟨.getVirtualMachine ns name, .error .notFound⟩]
          ∧ outcome = .error (.machineNotFound name))
        ∨ ∃ fault, fault ≠ .notFound ∧ events = [⟨.getVirtualMachine ns name, .error fault⟩]
          ∧ outcome = .error (.object .get VirtualMachine.resource.kind name fault) := by
  unfold getMachine
  rw [runs_call_bind_iff]
  constructor
  · rintro ⟨answer, rest, rfl, h⟩
    split at h
    · obtain ⟨rfl, rfl⟩ := runs_pure_iff.mp h
      exact .inl ⟨_, rfl, rfl⟩
    · obtain ⟨rfl, rfl⟩ := runs_pure_iff.mp h
      exact .inr (.inl ⟨rfl, rfl⟩)
    · rename_i fault hfault
      obtain ⟨rfl, rfl⟩ := runs_pure_iff.mp h
      exact .inr (.inr ⟨fault, hfault, rfl, rfl⟩)
  · rintro (⟨vm, rfl, rfl⟩ | ⟨rfl, rfl⟩ | ⟨fault, hfault, rfl, rfl⟩)
    · exact ⟨.ok vm, [], rfl, .done _⟩
    · exact ⟨.error .notFound, [], rfl, .done _⟩
    · refine ⟨.error fault, [], rfl, ?_⟩
      cases fault with
      | notFound => exact absurd rfl hfault
      | conflict reason => exact .done _
      | api reason => exact .done _

theorem machineStatus_reads (name : String) (credentials : Credentials) :
    (machineStatus name credentials).Reads := by
  unfold machineStatus
  refine .bind (.call rfl) fun client => ?_
  split
  · exact .pure _
  · refine .bind (getMachine_reads _ _) fun read => ?_
    split <;> exact .pure _

theorem listMachines_reads (spec : MachineSpec) (credentials : Credentials) :
    (listMachines spec credentials).Reads := by
  unfold listMachines
  refine .bind (.call rfl) fun client => ?_
  split
  · exact .pure _
  · refine .bind (.call rfl) fun answer => ?_
    split <;> exact .pure _

namespace Plan

theorem findBootSource_reads (ns sourceUrl : String) (machineClass : Option String) :
    (findBootSource ns sourceUrl machineClass).Reads := by
  unfold findBootSource
  split
  · exact .pure _
  · exact .pure _
  · refine .bind (.call rfl) fun answer => ?_
    split <;> exact .pure _

/-- A preparation writes nothing. -/
theorem prepare_reads (name : String) (spec : MachineSpec) (credentials : Credentials) :
    (prepare name spec credentials).Reads := by
  unfold prepare
  refine .bind (.call rfl) fun client => ?_
  split
  · exact .pure _
  · refine .bind (.call rfl) fun seconds => ?_
    split
    · exact .pure _
    · refine .bind (.call rfl) fun version => ?_
      split
      · exact .pure _
      · split
        · exact .pure _
        · refine .bind (findBootSource_reads _ _ _) fun source => ?_
          split <;> exact .pure _

end Plan

/-! ## Creating -/

/-- A creation writes only by creating. -/
theorem createMachine_only_creates (name : String) (spec : MachineSpec)
    (credentials : Credentials) : (createMachine name spec credentials).MakesOnly
      fun call => call.isMutating = true → call.creates = true := by
  have hreads : (Plan.prepare name spec credentials).MakesOnly
      fun call => call.isMutating = true → call.creates = true :=
    (Plan.prepare_reads name spec credentials).mono fun call hread hwrite => by
      rw [hread] at hwrite
      cases hwrite
  refine hreads.bind fun prepared => ?_
  split
  · exact .pure _
  · refine .bind (.call fun _ => rfl) fun machine => ?_
    split
    · exact .pure _
    · refine .bind (.call fun _ => rfl) fun secret => ?_
      split <;> exact .pure _

/-! ## Writing without creating -/

theorem deleteMachine_creates_nothing (name : String) (credentials : Credentials) :
    (deleteMachine name credentials).CreatesNothing := by
  unfold deleteMachine
  refine .bind (.call rfl) fun client => ?_
  split
  · exact .pure _
  · refine .bind (getMachine_reads _ _).createsNothing fun read => ?_
    split
    · exact .pure _
    · exact .pure _
    · refine .bind (.call rfl) fun answer => ?_
      split <;> exact .pure _

theorem stopAttempt_creates_nothing (ns name : String) (version : Option String) (n : Nat) :
    (stopAttempt ns name version n).CreatesNothing := by
  by_cases hn : n = 1
  · subst hn
    exact .call rfl
  · rw [stopAttempt_of_ne_one ns name version hn]
    refine .bind (.call rfl) fun answer => ?_
    split
    · exact .pure _
    · exact .call rfl

/-- Attempts make the calls of a single attempt and pause. -/
theorem Program.MakesOnly.attempts {α : Type} {sort : Call → Prop} (p : RetryPolicy)
    {attempt : Nat → Program (Except StoreError α)} (hattempt : ∀ n, (attempt n).MakesOnly sort)
    (hsleep : ∀ d, sort (Call.sleep d)) (left n : Nat) (delay : Duration) :
    (p.attemptFrom .crash (fun d => Program.call (.sleep d)) attempt left n delay).MakesOnly
      sort := by
  induction left generalizing n delay with
  | zero => exact hattempt n
  | succ left ih =>
      refine .bind (hattempt n) fun outcome => ?_
      split
      · split
        · exact .crash
        · refine .bind (.call (hsleep _)) fun _ => ?_
          split
          · exact .crash
          · exact ih _ _
      · exact .pure _

theorem shutdownMachine_creates_nothing (policy : RetryPolicy) (name : String)
    (credentials : Credentials) : (shutdownMachine policy name credentials).CreatesNothing := by
  unfold shutdownMachine
  refine .bind (.call rfl) fun client => ?_
  split
  · exact .pure _
  · refine .bind (getMachine_reads _ _).createsNothing fun read => ?_
    split
    · exact .pure _
    · refine .bind (.attempts policy (stopAttempt_creates_nothing _ _ _) (fun _ => rfl) _ _ _)
        fun outcome => ?_
      split <;> exact .pure _

/-! ## Operations that never crash -/

theorem getMachine_never_crashes (ns name : String) : (getMachine ns name).NeverCrashes := by
  unfold getMachine
  refine .bind (.call _) fun answer => ?_
  split <;> exact .pure _

theorem machineStatus_never_crashes (name : String) (credentials : Credentials) :
    (machineStatus name credentials).NeverCrashes := by
  unfold machineStatus
  refine .bind (.call _) fun client => ?_
  split
  · exact .pure _
  · refine .bind (getMachine_never_crashes _ _) fun read => ?_
    split <;> exact .pure _

theorem listMachines_never_crashes (spec : MachineSpec) (credentials : Credentials) :
    (listMachines spec credentials).NeverCrashes := by
  unfold listMachines
  refine .bind (.call _) fun client => ?_
  split
  · exact .pure _
  · refine .bind (.call _) fun answer => ?_
    split <;> exact .pure _

theorem deleteMachine_never_crashes (name : String) (credentials : Credentials) :
    (deleteMachine name credentials).NeverCrashes := by
  unfold deleteMachine
  refine .bind (.call _) fun client => ?_
  split
  · exact .pure _
  · refine .bind (getMachine_never_crashes _ _) fun read => ?_
    split
    · exact .pure _
    · exact .pure _
    · refine .bind (.call _) fun answer => ?_
      split <;> exact .pure _

namespace Plan

theorem findBootSource_never_crashes (ns sourceUrl : String) (machineClass : Option String) :
    (findBootSource ns sourceUrl machineClass).NeverCrashes := by
  unfold findBootSource
  split
  · exact .pure _
  · exact .pure _
  · refine .bind (.call _) fun answer => ?_
    split <;> exact .pure _

theorem prepare_never_crashes (name : String) (spec : MachineSpec) (credentials : Credentials) :
    (prepare name spec credentials).NeverCrashes := by
  unfold prepare
  refine .bind (.call _) fun client => ?_
  split
  · exact .pure _
  · refine .bind (.call _) fun seconds => ?_
    split
    · exact .pure _
    · refine .bind (.call _) fun version => ?_
      split
      · exact .pure _
      · split
        · exact .pure _
        · refine .bind (findBootSource_never_crashes _ _ _) fun source => ?_
          split <;> exact .pure _

theorem commit_never_crashes (p : Plan) : p.commit.NeverCrashes := by
  unfold commit
  refine .bind (.call _) fun machine => ?_
  split
  · exact .pure _
  · refine .bind (.call _) fun secret => ?_
    split <;> exact .pure _

end Plan

theorem createMachine_never_crashes (name : String) (spec : MachineSpec)
    (credentials : Credentials) : (createMachine name spec credentials).NeverCrashes := by
  refine .bind (Plan.prepare_never_crashes name spec credentials) fun prepared => ?_
  split
  · exact .pure _
  · exact Plan.commit_never_crashes _

end MachineDriver
