import Mathlib.Data.List.Nodup
import MachineDriver.Proofs.Interleaving
import MachineDriver.Proofs.Undisturbed

set_option autoImplicit false

/-!
# Clusters that only grow

What becomes of a cluster by calls that write only by creating, whoever makes them and in whatever
order: all that was there stays, and the machines and secrets that the calls created are added.

`Cluster.Grown` says so for a list of labelled calls. No two of the machines that were created have
the same name or the same identity, and none of them has one that was found in the cluster before:
a cluster refuses a name that is taken, and it gives an identity only once. -/

namespace MachineDriver

/-! ## What calls create -/

/-- The machine that a call created. -/
def Event.machine? : Event → Option VirtualMachine
  | ⟨.createVirtualMachine _, .ok vm⟩ => some vm
  | _ => none

/-- The secret that a call created. -/
def Event.secret? : Event → Option Secret
  | ⟨.createSecret _, .ok s⟩ => some s
  | _ => none

theorem Event.machine?_eq_some_iff {e : Event} {vm : VirtualMachine} :
    e.machine? = some vm ↔ ∃ asked, e = ⟨.createVirtualMachine asked, .ok vm⟩ := by
  constructor
  · intro h
    unfold Event.machine? at h
    split at h
    · cases h
      exact ⟨_, rfl⟩
    · cases h
  · rintro ⟨asked, rfl⟩
    rfl

theorem Event.secret?_eq_some_iff {e : Event} {s : Secret} :
    e.secret? = some s ↔ ∃ asked, e = ⟨.createSecret asked, .ok s⟩ := by
  constructor
  · intro h
    unfold Event.secret? at h
    split at h
    · cases h
      exact ⟨_, rfl⟩
    · cases h
  · rintro ⟨asked, rfl⟩
    rfl

theorem Event.secret?_of_read {e : Event} (h : e.call.isMutating = false) : e.secret? = none := by
  cases hs : e.secret? with
  | none => rfl
  | some s =>
      obtain ⟨asked, rfl⟩ := Event.secret?_eq_some_iff.mp hs
      cases h

section Labelled

variable {ι α : Type} {f : Event → Option α}

/-- What the calls of a history gave, each with the program that made the call. -/
def gained (f : Event → Option α) (history : List (ι × Event)) : List (ι × α) :=
  history.filterMap fun x => (f x.2).map fun v => (x.1, v)

theorem gained_cons_of_none {x : ι × Event} {history : List (ι × Event)} (h : f x.2 = none) :
    gained f (x :: history) = gained f history := by
  simp [gained, h]

theorem gained_cons_of_some {x : ι × Event} {history : List (ι × Event)} {v : α}
    (h : f x.2 = some v) : gained f (x :: history) = (x.1, v) :: gained f history := by
  simp [gained, h]

theorem mem_gained_iff {history : List (ι × Event)} {i : ι} {v : α} :
    (i, v) ∈ gained f history ↔ ∃ e, (i, e) ∈ history ∧ f e = some v := by
  simp only [gained, List.mem_filterMap, Option.map_eq_some_iff, Prod.mk.injEq]
  constructor
  · rintro ⟨⟨_, e⟩, hmem, _, hv, rfl, rfl⟩
    exact ⟨e, hmem, hv⟩
  · rintro ⟨e, hmem, hv⟩
    exact ⟨(i, e), hmem, v, hv, rfl, rfl⟩

theorem mem_gained_machine_iff {history : List (ι × Event)} {i : ι} {vm : VirtualMachine} :
    (i, vm) ∈ gained Event.machine? history
      ↔ ∃ asked, (i, ⟨.createVirtualMachine asked, .ok vm⟩) ∈ history := by
  simp only [mem_gained_iff, Event.machine?_eq_some_iff]
  constructor
  · rintro ⟨_, hmem, asked, rfl⟩
    exact ⟨asked, hmem⟩
  · rintro ⟨asked, hmem⟩
    exact ⟨_, hmem, asked, rfl⟩

theorem mem_gained_secret_iff {history : List (ι × Event)} {i : ι} {s : Secret} :
    (i, s) ∈ gained Event.secret? history
      ↔ ∃ asked, (i, ⟨.createSecret asked, .ok s⟩) ∈ history := by
  simp only [mem_gained_iff, Event.secret?_eq_some_iff]
  constructor
  · rintro ⟨_, hmem, asked, rfl⟩
    exact ⟨asked, hmem⟩
  · rintro ⟨asked, hmem⟩
    exact ⟨_, hmem, asked, rfl⟩

/-- What the calls of one program gave among what those of all did. -/
theorem map_snd_gained_of_label [DecidableEq ι] (i : ι) (history : List (ι × Event)) :
    ((gained f history).filter fun x => x.1 = i).map Prod.snd
      = (eventsOf i history).filterMap f := by
  induction history with
  | nil => rfl
  | cons x rest ih =>
      obtain ⟨j, e⟩ := x
      by_cases hj : i = j
      · subst hj
        rw [eventsOf_cons_self]
        cases hv : f e with
        | none => rw [gained_cons_of_none hv, ih, List.filterMap_cons_none hv]
        | some v => simp [gained_cons_of_some (x := (i, e)) hv, hv, ih]
      · rw [eventsOf_cons_of_ne hj, ← ih]
        cases hv : f e with
        | none => rw [gained_cons_of_none hv]
        | some v =>
            rw [gained_cons_of_some (x := (j, e)) hv]
            simp [Ne.symm hj]

end Labelled

namespace Cluster

variable {ι : Type} {home : Credentials → Outcome String} {c d : Cluster}

/-- An identity that is found nowhere in a cluster: no machine has it, and no secret is owned by
    it. -/
def IsUnused (c : Cluster) (uid : String) : Prop :=
  c.IsFresh uid ∧ ∀ s ∈ c.secrets, isOwnedBy uid s = false

/-- Identities are given only once. -/
def Terms.unused (home : Credentials → Outcome String) : Terms :=
  ⟨home, IsUnused⟩

/-- The machine of a key, a namespace and a name. -/
abbrev at? (c : Cluster) (key : String × String) : Option VirtualMachine :=
  c.machine? key.1 key.2

theorem at?_putMachine (c : Cluster) (vm : VirtualMachine) (key : String × String) :
    (c.putMachine vm).at? key = if key = vm.metadata.key then some vm else c.at? key :=
  machine?_putMachine c vm key.1 key.2

theorem at?_putMachine_self (c : Cluster) (vm : VirtualMachine) :
    (c.putMachine vm).at? vm.metadata.key = some vm := by
  rw [at?_putMachine, if_pos rfl]

/-- A machine that is new leaves the others as they are. -/
theorem at?_putMachine_of_some {vm other : VirtualMachine} {key : String × String}
    (hnone : c.at? vm.metadata.key = none) (hother : c.at? key = some other) :
    (c.putMachine vm).at? key = some other := by
  rw [at?_putMachine, if_neg, hother]
  rintro rfl
  rw [hnone] at hother
  cases hother

theorem none_of_putMachine {vm : VirtualMachine} {key : String × String}
    (h : (c.putMachine vm).at? key = none) : key ≠ vm.metadata.key ∧ c.at? key = none := by
  rw [at?_putMachine] at h
  split at h
  · cases h
  · rename_i hkey
    exact ⟨hkey, h⟩

theorem IsUnused.of_putMachine {vm : VirtualMachine} {uid : String}
    (h : (c.putMachine vm).IsUnused uid) (hnone : c.at? vm.metadata.key = none) :
    c.IsUnused uid ∧ vm.metadata.uid ≠ some uid := by
  refine ⟨⟨fun ns name other hother => ?_, h.2⟩, h.1 _ _ vm (at?_putMachine_self c vm)⟩
  have hkept : (c.putMachine vm).at? (ns, name) = some other :=
    at?_putMachine_of_some hnone hother
  exact h.1 ns name other hkept

theorem IsUnused.putMachine {vm : VirtualMachine} {uid : String} (h : c.IsUnused uid)
    (hne : vm.metadata.uid ≠ some uid) : (c.putMachine vm).IsUnused uid := by
  refine ⟨fun ns name other hother => ?_, h.2⟩
  rw [machine?_putMachine] at hother
  split at hother
  · cases hother
    exact hne
  · exact h.1 ns name other hother

/-- What a call does that writes only by creating. -/
theorem cases_of_step {e : Event} (h : c.Step (.unused home) e d)
    (hcreates : e.call.isMutating = true → e.call.creates = true) :
    (e.machine? = none ∧ e.secret? = none ∧ d = c)
      ∨ (∃ vm uid, e.machine? = some vm ∧ e.secret? = none ∧ vm.metadata.uid = some uid
          ∧ c.IsUnused uid ∧ c.at? vm.metadata.key = none ∧ d = c.putMachine vm)
      ∨ ∃ s, e.machine? = none ∧ e.secret? = some s ∧ d = (c.createSecret s).2 := by
  obtain ⟨call, answer⟩ := e
  cases call with
  | createVirtualMachine vm =>
      obtain ⟨uid, version, hunused, hcreated⟩ := h
      rcases cases_of_stored hcreated with ⟨⟨_, _, _, rfl⟩, rfl⟩ | ⟨hnone, rfl, rfl⟩
      · exact .inl ⟨rfl, rfl, rfl⟩
      · exact .inr (.inl ⟨_, uid, rfl, rfl, rfl, hunused, hnone, rfl⟩)
  | createSecret s =>
      cases h
      exact .inr (.inr ⟨s, rfl, rfl, rfl⟩)
  | setRunning ns name expected running => cases hcreates rfl
  | deleteVirtualMachine ns name => cases hcreates rfl
  | _ => exact .inl ⟨rfl, rfl, eq_of_read h rfl⟩

/-- What calls that only create make of a cluster `c`. -/
structure Grown (c : Cluster) (history : List (ι × Event)) (d : Cluster) : Prop where
  machines : ∀ key vm, d.at? key = some vm ↔ c.at? key = some vm
    ∨ ∃ i, (i, vm) ∈ gained Event.machine? history ∧ vm.metadata.key = key
  secrets : d.secrets = c.secrets ++ (gained Event.secret? history).map Prod.snd
  new : ∀ x ∈ gained Event.machine? history, c.at? x.2.metadata.key = none
  unused : ∀ x ∈ gained Event.machine? history,
    ∃ uid, x.2.metadata.uid = some uid ∧ c.IsUnused uid
  keys : ((gained Event.machine? history).map fun x => x.2.metadata.key).Nodup
  uids : ((gained Event.machine? history).map fun x => x.2.metadata.uid).Nodup

namespace Grown

variable {x : ι × Event} {history : List (ι × Event)}

theorem nil : Grown c ([] : List (ι × Event)) c where
  machines := by simp [gained]
  secrets := by simp [gained]
  new := by simp [gained]
  unused := by simp [gained]
  keys := List.nodup_nil
  uids := List.nodup_nil

theorem read (h : Grown c history d) (hmachine : x.2.machine? = none)
    (hsecret : x.2.secret? = none) : Grown c (x :: history) d := by
  constructor <;> simp only [gained_cons_of_none hmachine, gained_cons_of_none hsecret]
  · exact h.machines
  · exact h.secrets
  · exact h.new
  · exact h.unused
  · exact h.keys
  · exact h.uids

/-- A machine is created first. -/
theorem machine {vm : VirtualMachine} {uid : String} (h : Grown (c.putMachine vm) history d)
    (hmachine : x.2.machine? = some vm) (hsecret : x.2.secret? = none)
    (huid : vm.metadata.uid = some uid) (hunused : c.IsUnused uid)
    (hnone : c.at? vm.metadata.key = none) : Grown c (x :: history) d := by
  constructor <;> simp only [gained_cons_of_some hmachine, gained_cons_of_none hsecret]
  · intro key other
    rw [h.machines]
    constructor
    · rintro (hother | ⟨i, hmem, hkey⟩)
      · rw [at?_putMachine] at hother
        split at hother
        · rename_i hkey
          cases hother
          exact .inr ⟨x.1, List.mem_cons_self, hkey.symm⟩
        · exact .inl hother
      · exact .inr ⟨i, List.mem_cons_of_mem _ hmem, hkey⟩
    · rintro (hother | ⟨i, hmem, rfl⟩)
      · exact .inl (at?_putMachine_of_some hnone hother)
      · rcases List.mem_cons.mp hmem with heq | hmem
        · cases heq
          exact .inl (at?_putMachine_self c vm)
        · exact .inr ⟨i, hmem, rfl⟩
  · exact h.secrets
  · intro y hy
    rcases List.mem_cons.mp hy with rfl | hy
    · exact hnone
    · exact (none_of_putMachine (h.new y hy)).2
  · intro y hy
    rcases List.mem_cons.mp hy with rfl | hy
    · exact ⟨uid, huid, hunused⟩
    · obtain ⟨uid', huid', hunused'⟩ := h.unused y hy
      exact ⟨uid', huid', (hunused'.of_putMachine hnone).1⟩
  · refine List.nodup_cons.mpr ⟨fun hmem => ?_, h.keys⟩
    obtain ⟨y, hy, hkey⟩ := List.mem_map.mp hmem
    exact (none_of_putMachine (h.new y hy)).1 hkey
  · refine List.nodup_cons.mpr ⟨fun hmem => ?_, h.uids⟩
    obtain ⟨y, hy, hsame⟩ := List.mem_map.mp hmem
    obtain ⟨uid', huid', hunused'⟩ := h.unused y hy
    exact (hunused'.of_putMachine hnone).2 (hsame.symm.trans huid')

/-- A secret is created first. -/
theorem secret {s : Secret} (h : Grown (c.createSecret s).2 history d)
    (hmachine : x.2.machine? = none) (hsecret : x.2.secret? = some s) :
    Grown c (x :: history) d := by
  constructor <;> simp only [gained_cons_of_none hmachine, gained_cons_of_some hsecret]
  · exact h.machines
  · rw [h.secrets]
    simp [createSecret]
  · exact h.new
  · intro y hy
    obtain ⟨uid, huid, hfresh, howned⟩ := h.unused y hy
    exact ⟨uid, huid, hfresh, fun s' hs' => howned s' (List.mem_append_left _ hs')⟩
  · exact h.keys
  · exact h.uids

/-- **What calls make of a cluster** that write only by creating. -/
theorem of_path (h : Path (fun u (x : ι × Event) w => Step (.unused home) u x.2 w) c history d)
    (hcreates : ∀ x ∈ history, x.2.call.isMutating = true → x.2.call.creates = true) :
    Grown c history d := by
  induction history generalizing c with
  | nil =>
      cases h
      exact .nil
  | cons x rest ih =>
      obtain ⟨u, hstep, hrest⟩ := h
      have hgrown := ih hrest fun y hy => hcreates y (List.mem_cons_of_mem x hy)
      rcases cases_of_step hstep (hcreates x List.mem_cons_self) with ⟨hmachine, hsecret, rfl⟩
        | ⟨vm, uid, hmachine, hsecret, huid, hunused, hnone, rfl⟩ | ⟨s, hmachine, hsecret, rfl⟩
      · exact hgrown.read hmachine hsecret
      · exact hgrown.machine hmachine hsecret huid hunused hnone
      · exact hgrown.secret hmachine hsecret

end Grown

end Cluster

end MachineDriver
