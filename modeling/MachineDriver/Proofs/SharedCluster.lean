import MachineDriver.Cluster.Store
import MachineDriver.Proofs.Trace

set_option autoImplicit false

/-!
# Clusters that others change

The machines of a cluster to which several clients have access. Between any two of our calls others
may create, change, remove and create anew any machine. What the cluster promises is little: every
machine has a version, every write gives a version that no machine ever had, and a write that
expects a version is carried out only on a machine that has it. Any of our calls may also be
refused, for any reason; a call that is refused changes nothing.

`Shared.unchanged_of_same_version` is what the versions are good for: a machine that still has the
version that it was read with is the machine that was read, and nobody has written it since. -/

namespace MachineDriver

/-- The machines of a cluster, and all versions that were ever given to a machine. -/
structure Shared where
  cluster : Cluster
  given : List String
  versioned : ∀ ns name vm, cluster.machine? ns name = some vm →
    ∃ version ∈ given, vm.metadata.resourceVersion = some version

/-- What happens to a cluster: a call of ours, or something that another client does. -/
inductive Happening where
  | ours (e : Event)
  /-- A machine is created, or changed in any way, under its namespace and name. -/
  | written (vm : VirtualMachine)
  | removed (ns name : String)

namespace Happening

/-- The call, if it is one of ours. -/
def ours? : Happening → Option Event
  | .ours e => some e
  | _ => none

/-- Another client writes or removes the machine of a namespace and a name. -/
def Changes (ns name : String) : Happening → Prop
  | .ours _ => False
  | .written vm => vm.metadata.key = (ns, name)
  | .removed ns' name' => (ns', name') = (ns, name)

end Happening

/-- Our calls among all that happens. -/
def ownEvents (history : List Happening) : List Event :=
  history.filterMap Happening.ours?

@[simp] theorem ownEvents_append (first rest : List Happening) :
    ownEvents (first ++ rest) = ownEvents first ++ ownEvents rest :=
  List.filterMap_append

@[simp] theorem ownEvents_ours (e : Event) (rest : List Happening) :
    ownEvents (.ours e :: rest) = e :: ownEvents rest := rfl

/-- Where one of our calls stands among all that happens. -/
theorem exists_own {history : List Happening} {earlier later : List Event} {e : Event}
    (h : ownEvents history = earlier ++ e :: later) :
    ∃ before after, history = before ++ .ours e :: after ∧ ownEvents before = earlier
      ∧ ownEvents after = later := by
  obtain ⟨before, rest, rfl, hbefore, hrest⟩ := List.filterMap_eq_append_iff.mp h
  obtain ⟨skipped, happening, after, rfl, hskipped, hours, hafter⟩ :=
    List.filterMap_eq_cons_iff.mp hrest
  cases happening with
  | ours e' =>
      cases hours
      refine ⟨before ++ skipped, after, by simp, ?_, hafter⟩
      have hnone : ownEvents skipped = [] := List.filterMap_eq_nil_iff.mpr hskipped
      rw [ownEvents_append, hnone, List.append_nil]
      exact hbefore
  | written vm => cases hours
  | removed ns name => cases hours

/-- The first of some calls come before any other of them. -/
theorem exists_before_of_first {before after first rest : List Event} {e : Event}
    (h : before ++ e :: after = first ++ rest) (he : e ∉ first) :
    ∃ between, before = first ++ between := by
  rcases List.append_eq_append_iff.mp h with ⟨tail, rfl, htail⟩ | ⟨between, hbefore, _⟩
  · cases tail with
    | nil => exact ⟨[], by simp⟩
    | cons e' tail =>
        rw [List.cons_append, List.cons.injEq] at htail
        exact absurd (by simp [htail.1]) he
  · exact ⟨between, hbefore⟩

namespace Shared

/-! ## Steps -/

/-- A cluster without machines. -/
def empty : Shared where
  cluster := .empty
  given := []
  versioned := by
    intro ns name vm h
    cases h

/-- A machine is written and gets a version. -/
def write (s : Shared) (vm : VirtualMachine) (version : String) : Shared where
  cluster := s.cluster.putMachine (Cluster.withVersion vm version)
  given := version :: s.given
  versioned := by
    intro ns name vm' h
    rw [Cluster.machine?_putMachine] at h
    split at h
    · cases h
      exact ⟨version, List.mem_cons_self, rfl⟩
    · obtain ⟨v, hv, hvm⟩ := s.versioned ns name vm' h
      exact ⟨v, List.mem_cons_of_mem _ hv, hvm⟩

/-- A machine is removed. -/
def remove (s : Shared) (ns name : String) : Shared where
  cluster := s.cluster.dropMachine ns name
  given := s.given
  versioned := by
    intro ns' name' vm h
    rw [Cluster.machine?_dropMachine] at h
    split at h
    · cases h
    · exact s.versioned ns' name' vm h

/-- What may be answered to a call of ours, and what becomes of the cluster. A call that is refused
    changes nothing, and neither does one that writes no machine. -/
def Answers (s : Shared) : (call : Call) → call.Answer → Shared → Prop
  | .getVirtualMachine ns name, .ok vm, t => s.cluster.machine? ns name = some vm ∧ t = s
  | .setRunning ns name expected running, .ok stored, t =>
      ∃ old vm version, s.cluster.machine? ns name = some old
        ∧ (expected = none ∨ expected = old.metadata.resourceVersion)
        ∧ vm.metadata.key = (ns, name) ∧ vm.spec.running = some running ∧ version ∉ s.given
        ∧ stored = Cluster.withVersion vm version ∧ t = s.write vm version
  | .createVirtualMachine asked, .ok stored, t =>
      ∃ vm version, s.cluster.machine? asked.metadata.key.1 asked.metadata.key.2 = none
        ∧ vm.metadata.key = asked.metadata.key ∧ version ∉ s.given
        ∧ stored = Cluster.withVersion vm version ∧ t = s.write vm version
  | .deleteVirtualMachine ns name, .ok (), t =>
      (s.cluster.machine? ns name).isSome ∧ t = s.remove ns name
  | _, _, t => t = s

/-- What may become of a cluster when something happens. -/
def Step (s : Shared) : Happening → Shared → Prop
  | .ours e, t => s.Answers e.call e.answer t
  | .written vm, t => ∃ version, version ∉ s.given ∧ t = s.write vm version
  | .removed ns name, t => t = s.remove ns name

/-! ## What versions tell -/

theorem machine?_write (s : Shared) (vm : VirtualMachine) (version ns name : String) :
    (s.write vm version).cluster.machine? ns name
      = if (ns, name) = vm.metadata.key then some (Cluster.withVersion vm version)
        else s.cluster.machine? ns name :=
  Cluster.machine?_putMachine s.cluster (Cluster.withVersion vm version) ns name

/-- The machine of a namespace and a name, if there is one, has none of the versions `old`. -/
def RenewedSince (s : Shared) (old : List String) (ns name : String) : Prop :=
  ∀ vm, s.cluster.machine? ns name = some vm → ∀ v ∈ old, vm.metadata.resourceVersion ≠ some v

variable {s t : Shared} {ns name : String} {h : Happening} {old : List String}

/-- No version is ever taken back. -/
theorem given_subset_of_foreign (hstep : s.Step h t) (hforeign : h.ours? = none) :
    s.given ⊆ t.given := by
  cases h with
  | ours e => cases hforeign
  | written vm =>
      obtain ⟨version, _, rfl⟩ := hstep
      exact List.subset_cons_self version s.given
  | removed ns' name' =>
      cases hstep
      exact List.Subset.refl s.given

/-- A machine that others write does not get an old version, and one that they leave alone keeps
    its version. -/
theorem renewedSince_of_foreign (hstep : s.Step h t) (hforeign : h.ours? = none)
    (hold : old ⊆ s.given) (hs : s.RenewedSince old ns name ∨ h.Changes ns name) :
    t.RenewedSince old ns name := by
  cases h with
  | ours e => cases hforeign
  | written vm =>
      obtain ⟨version, hfresh, rfl⟩ := hstep
      intro vm' hvm' v hv
      rw [machine?_write] at hvm'
      split at hvm'
      · cases hvm'
        intro hversion
        cases hversion
        exact hfresh (hold hv)
      · rename_i hkey
        rcases hs with hs | hs
        · exact hs vm' hvm' v hv
        · exact absurd hs.symm hkey
  | removed ns' name' =>
      cases hstep
      intro vm' hvm' v hv
      rw [show (s.remove ns' name').cluster = s.cluster.dropMachine ns' name' from rfl,
        Cluster.machine?_dropMachine] at hvm'
      split at hvm'
      · cases hvm'
      · rename_i hkey
        rcases hs with hs | hs
        · exact hs vm' hvm' v hv
        · exact absurd hs.symm hkey

/-- A machine that others leave alone stays as it is. -/
theorem machine?_of_not_changes (hstep : s.Step h t) (hforeign : h.ours? = none)
    (hchange : ¬ h.Changes ns name) : t.cluster.machine? ns name = s.cluster.machine? ns name := by
  cases h with
  | ours e => cases hforeign
  | written vm =>
      obtain ⟨version, _, rfl⟩ := hstep
      rw [machine?_write, if_neg fun hkey => hchange hkey.symm]
  | removed ns' name' =>
      cases hstep
      rw [show (s.remove ns' name').cluster = s.cluster.dropMachine ns' name' from rfl,
        Cluster.machine?_dropMachine, if_neg fun hkey => hchange hkey.symm]

theorem renewedSince_of_path {between : List Happening} (hpath : Path Step s between t)
    (hforeign : ownEvents between = []) (hold : old ⊆ s.given) (hs : s.RenewedSince old ns name) :
    t.RenewedSince old ns name := by
  have hkept : t.RenewedSince old ns name ∧ old ⊆ t.given := by
    refine hpath.invariant (I := fun u => u.RenewedSince old ns name ∧ old ⊆ u.given) ?_ ⟨hs, hold⟩
    intro h hmem u w hstep hu
    have hnone : h.ours? = none := List.filterMap_eq_nil_iff.mp hforeign h hmem
    exact ⟨renewedSince_of_foreign hstep hnone hu.2 (.inl hu.1),
      List.Subset.trans hu.2 (given_subset_of_foreign hstep hnone)⟩
  exact hkept.1

/-- **The same version means the same machine.** If a machine has the version with which it was
    read, while only others acted, then none of them wrote or removed it, and it is what was
    read. -/
theorem unchanged_of_same_version {between : List Happening} {vm now : VirtualMachine}
    (hpath : Path Step s between t) (hforeign : ownEvents between = [])
    (hread : s.cluster.machine? ns name = some vm) (hnow : t.cluster.machine? ns name = some now)
    (hversion : now.metadata.resourceVersion = vm.metadata.resourceVersion) :
    (∀ h ∈ between, ¬ h.Changes ns name) ∧ now = vm := by
  induction between generalizing s with
  | nil =>
      cases hpath
      rw [hread] at hnow
      cases hnow
      exact ⟨by simp, rfl⟩
  | cons h rest ih =>
      obtain ⟨u, hstep, hrest⟩ := hpath
      have hnone : h.ours? = none :=
        List.filterMap_eq_nil_iff.mp hforeign h List.mem_cons_self
      have hothers : ownEvents rest = [] :=
        List.filterMap_eq_nil_iff.mpr fun h' hh' =>
          List.filterMap_eq_nil_iff.mp hforeign h' (List.mem_cons_of_mem _ hh')
      by_cases hchange : h.Changes ns name
      · -- A write would have taken the version away for good.
        have hu : u.RenewedSince s.given ns name :=
          renewedSince_of_foreign hstep hnone (List.Subset.refl _) (.inr hchange)
        have ht : t.RenewedSince s.given ns name :=
          renewedSince_of_path hrest hothers (given_subset_of_foreign hstep hnone) hu
        obtain ⟨v, hv, hvm⟩ := s.versioned ns name vm hread
        exact absurd (hversion.trans hvm) (ht now hnow v hv)
      · have hsame := machine?_of_not_changes hstep hnone hchange
        obtain ⟨hunchanged, hnow_eq⟩ := ih hrest hothers (hsame.trans hread)
        refine ⟨?_, hnow_eq⟩
        intro h' hh'
        rcases List.mem_cons.mp hh' with rfl | hh'
        · exact hchange
        · exact hunchanged h' hh'

/-- A write that expects the version of a read and is accepted hits what was read. -/
theorem unchanged_of_accepted {u : Shared} {between : List Happening} {vm stored : VirtualMachine}
    {running : Bool} (hread : s.cluster.machine? ns name = some vm) (hpath : Path Step s between u)
    (hforeign : ownEvents between = [])
    (hwrite : u.Answers (.setRunning ns name vm.metadata.resourceVersion running) (.ok stored) t) :
    (∀ h ∈ between, ¬ h.Changes ns name) ∧ u.cluster.machine? ns name = some vm := by
  obtain ⟨now, _, _, hnow, hexpected, _⟩ := hwrite
  obtain ⟨version, _, hversion⟩ := s.versioned ns name vm hread
  rcases hexpected with hnone | hsame
  · rw [hversion] at hnone
    cases hnone
  · obtain ⟨hunchanged, rfl⟩ := unchanged_of_same_version hpath hforeign hread hnow hsame.symm
    exact ⟨hunchanged, hnow⟩

/-- What is read under a name bears that name. -/
theorem shownName_of_read {history : List Happening} {vm : VirtualMachine}
    (hpath : Path Step s history t)
    (hread : ⟨.getVirtualMachine ns name, .ok vm⟩ ∈ ownEvents history) :
    vm.metadata.shownName = name := by
  obtain ⟨earlier, later, hsplit⟩ := List.append_of_mem hread
  obtain ⟨before, after, rfl, _⟩ := exists_own hsplit
  obtain ⟨u, _, hfrom⟩ := path_append_iff.mp hpath
  obtain ⟨_, hanswer, _⟩ := path_cons_iff.mp hfrom
  have hfound : u.cluster.machine? ns name = some vm := hanswer.1
  exact Cluster.shownName_of_machine? hfound

/-- A write that is accepted is stored. -/
theorem machine?_of_accepted {expected : Option String} {running : Bool} {stored : VirtualMachine}
    (hwrite : s.Answers (.setRunning ns name expected running) (.ok stored) t) :
    t.cluster.machine? ns name = some stored ∧ stored.spec.running = some running := by
  obtain ⟨_, vm, version, _, _, hkey, hrunning, _, rfl, rfl⟩ := hwrite
  rw [machine?_write, if_pos hkey.symm]
  exact ⟨rfl, hrunning⟩

end Shared

end MachineDriver
