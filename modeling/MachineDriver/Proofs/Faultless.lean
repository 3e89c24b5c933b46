import MachineDriver.Cluster.World
import MachineDriver.Proofs.Undisturbed

set_option autoImplicit false

/-!
# Worlds without faults

A world for which no faults are planned answers as an undisturbed cluster does, if the identities of
its machines are those that it has counted. So whatever is shown of all undisturbed clusters holds
of every run in such a world, and such a run shows what undisturbed clusters can do. -/

namespace MachineDriver

open Program

/-! ## Identities -/

namespace World

theorem numeral_inj {m n : Nat} (h : numeral m = numeral n) : m = n :=
  Text.decimal_inj (String.ofList_injective h)

theorem identity_inj {m n : Nat} (h : identity m = identity n) : m = n := by
  have hchars := congrArg String.toList h
  simp only [identity, String.toList_append, List.append_cancel_left_eq] at hchars
  exact Nat.succ.inj (numeral_inj (String.toList_inj.mp hchars))

end World

/-- Every machine has one of the first `n` identities. -/
def Cluster.CountedTo (c : Cluster) (n : Nat) : Prop :=
  ∀ ns name vm, c.machine? ns name = some vm →
    ∃ k < n, vm.metadata.uid = some (World.identity k)

namespace Cluster.CountedTo

variable {c : Cluster} {n : Nat}

theorem isFresh (hc : c.CountedTo n) : c.IsFresh (World.identity n) := by
  intro ns name vm hvm heq
  obtain ⟨k, hk, huid⟩ := hc ns name vm hvm
  rw [huid, Option.some.injEq] at heq
  exact absurd (World.identity_inj heq) (Nat.ne_of_lt hk)

theorem putMachine {m : Nat} (hc : c.CountedTo n) (hle : n ≤ m) {vm : VirtualMachine}
    (hvm : ∃ k < m, vm.metadata.uid = some (World.identity k)) : (c.putMachine vm).CountedTo m := by
  intro ns name vm' hvm'
  rw [machine?_putMachine] at hvm'
  split at hvm'
  · cases hvm'
    exact hvm
  · obtain ⟨k, hk, huid⟩ := hc ns name vm' hvm'
    exact ⟨k, Nat.lt_of_lt_of_le hk hle, huid⟩

theorem dropMachine (hc : c.CountedTo n) (ns name : String) :
    (c.dropMachine ns name).CountedTo n := by
  intro ns' name' vm hvm
  rw [machine?_dropMachine] at hvm
  split at hvm
  · cases hvm
  · exact hc ns' name' vm hvm

theorem create (hc : c.CountedTo n) {d : Cluster} {version : String} {vm : VirtualMachine}
    {answer : Except StoreError VirtualMachine}
    (h : c.createMachine (World.identity n) version vm = (answer, d)) :
    (∃ fault, answer = .error fault) ∧ d = c
      ∨ (∃ stored, answer = .ok stored) ∧ d.CountedTo (n + 1) := by
  unfold createMachine at h
  dsimp only at h
  split at h
  · cases h
    exact .inl ⟨⟨_, rfl⟩, rfl⟩
  · cases h
    exact .inr ⟨⟨_, rfl⟩, hc.putMachine (Nat.le_succ n) ⟨n, Nat.lt_succ_self n, rfl⟩⟩

theorem running (hc : c.CountedTo n) (version ns name : String) (expected : Option String)
    (running : Bool) : (c.setRunning version ns name expected running).2.CountedTo n := by
  unfold setRunning
  split
  · exact hc
  · rename_i vm hvm
    split
    · exact hc
    · exact hc.putMachine (Nat.le_refl n) (hc ns name vm hvm)

theorem delete (hc : c.CountedTo n) (ns name : String) :
    (c.deleteMachine ns name).2.CountedTo n := by
  unfold deleteMachine
  split
  · exact hc
  · split <;> exact hc.dropMachine ns name

end Cluster.CountedTo

/-! ## Answers -/

namespace World

/-- No faults are planned, clients get the namespace `ns`, and the machines have the identities that
    were counted. -/
structure Faultless (ns : String) (w : World) : Prop where
  faults_eq : w.faults = {}
  ns_eq : w.ns = ns
  counted : w.cluster.CountedTo w.identities

/-- A world without machines, volumes and faults. -/
theorem faultless_of_empty : Faultless "default" {} where
  faults_eq := rfl
  ns_eq := rfl
  counted := by
    intro ns name vm h
    cases h

namespace Faultless

variable {ns : String} {w : World}

theorem createMachine (h : w.Faultless ns) (vm : VirtualMachine) :
    w.cluster.Step (.fresh fun _ => .ok ns) ⟨.createVirtualMachine vm, (w.createMachine vm).1⟩
        (w.createMachine vm).2.cluster
      ∧ (w.createMachine vm).2.Faultless ns := by
  obtain ⟨hfaults, hns, hcounted⟩ := h
  unfold World.createMachine ask
  dsimp only
  cases hresult : w.cluster.createMachine (identity w.identities) w.nextVersion vm with
  | mk answer d =>
      have hstep : w.cluster.Step (.fresh fun _ => .ok ns) ⟨.createVirtualMachine vm, answer⟩ d :=
        ⟨_, _, hcounted.isFresh, hresult.symm⟩
      rcases hcounted.create hresult with ⟨⟨fault, rfl⟩, rfl⟩ | ⟨⟨stored, rfl⟩, hd⟩
      · exact ⟨hstep, hfaults, hns, hcounted⟩
      · exact ⟨hstep, hfaults, hns, hd⟩

theorem running (h : w.Faultless ns) (ns' name : String) (expected : Option String)
    (running : Bool) :
    w.cluster.Step (.fresh fun _ => .ok ns)
        ⟨.setRunning ns' name expected running, (w.setRunning ns' name expected running).1⟩
        (w.setRunning ns' name expected running).2.cluster
      ∧ (w.setRunning ns' name expected running).2.Faultless ns := by
  obtain ⟨hfaults, hns, hcounted⟩ := h
  have hd := hcounted.running w.nextVersion ns' name expected running
  unfold World.setRunning ask
  dsimp only
  cases hresult : w.cluster.setRunning w.nextVersion ns' name expected running with
  | mk answer d =>
      rw [hresult] at hd
      have hstep : w.cluster.Step (.fresh fun _ => .ok ns)
          ⟨.setRunning ns' name expected running, answer⟩ d := ⟨_, hresult.symm⟩
      cases answer with
      | error fault => exact ⟨hstep, hfaults, hns, hd⟩
      | ok stored => exact ⟨hstep, hfaults, hns, hd⟩

end Faultless

/-- **A world without faults answers as an undisturbed cluster does**, and stays without faults. -/
theorem Faultless.answer {ns : String} {w : World} (h : w.Faultless ns) (call : Call) :
    w.cluster.Step (.fresh fun _ => .ok ns) ⟨call, (answer call w).1⟩ (answer call w).2.cluster
      ∧ (answer call w).2.Faultless ns := by
  obtain ⟨cluster, revision, identities, ns', version, seconds, faults, calls⟩ := w
  obtain ⟨rfl, rfl, hcounted⟩ := h
  -- What is noted about the calls plays no part.
  have hlogged : Faultless ns' ⟨cluster, revision, identities, ns', version, seconds, {},
      call :: calls⟩ := ⟨rfl, rfl, hcounted⟩
  cases call with
  | client credentials => exact ⟨⟨rfl, rfl⟩, rfl, rfl, hcounted⟩
  | serverVersion credentials => exact ⟨rfl, rfl, rfl, hcounted⟩
  | getVirtualMachine ns name => exact ⟨⟨rfl, rfl⟩, rfl, rfl, hcounted⟩
  | listVirtualMachines ns labels => exact ⟨⟨rfl, rfl⟩, rfl, rfl, hcounted⟩
  | getDataVolume ns name => exact ⟨⟨rfl, rfl⟩, rfl, rfl, hcounted⟩
  | createSecret s => exact ⟨rfl, rfl, rfl, hcounted⟩
  | now => exact ⟨rfl, rfl, rfl, hcounted⟩
  | sleep d => exact ⟨rfl, rfl, rfl, hcounted⟩
  | deleteVirtualMachine ns name => exact ⟨rfl, rfl, rfl, hcounted.delete ns name⟩
  | createVirtualMachine vm => exact hlogged.createMachine vm
  | setRunning ns name expected running =>
      exact hlogged.running ns name expected running

/-- Every run of a program in a world without faults leads an undisturbed cluster along its
    calls. -/
theorem Faultless.exists_halts {α : Type} {ns : String} {w : World} (h : w.Faultless ns)
    (p : Program α) :
    ∃ events, p.Halts events (p.run World.answer w).1
      ∧ Path (Cluster.Step (.fresh fun _ => .ok ns)) w.cluster events
          (p.run World.answer w).2.cluster
      ∧ (p.run World.answer w).2.Faultless ns := by
  obtain ⟨events, hhalts, hpath⟩ := exists_halts_run World.answer p w
  refine ⟨events, hhalts, hpath.map (f := World.cluster) ?_ h⟩
  intro u e v hu hanswer
  have hstep := hu.answer e.call
  rw [hanswer] at hstep
  exact hstep

/-- An operation in a world without faults is one that an undisturbed cluster can undergo. -/
theorem Faultless.performs {ns : String} {w : World} (h : w.Faultless ns) (policy : RetryPolicy)
    (command : Command) :
    w.cluster.Performs (.fresh fun _ => .ok ns) policy command
        ((command.perform policy).run World.answer w).2.cluster
      ∧ ((command.perform policy).run World.answer w).2.Faultless ns := by
  obtain ⟨events, hhalts, hpath, hfaultless⟩ := h.exists_halts (command.perform policy)
  exact ⟨⟨events, _, hhalts, hpath⟩, hfaultless⟩

end World

end MachineDriver
