import MachineDriver.Proofs.Faultless

set_option autoImplicit false

/-!
# Which machines a listing finds

A machine is labelled with the tags of its specification and, above them, with its name; a listing
finds the machines that carry all tags. So a machine is found by the specification that it was
created with, unless this specification has a tag that the name of the machine displaces.

`mem_listMachines_iff` and `get?_namesById` say what a listing finds, and `machineLabels_carry_iff`
when the labels of a machine carry all tags. -/

namespace MachineDriver

open Program

/-- The labels of a machine carry all its tags exactly when its name displaces none of them. -/
theorem machineLabels_carry_iff {name : String} {tags : TextMap String} :
    tags.isSubmapOf (machineLabels name tags) = true
      ↔ ∀ value, tags.get? machineLabel = some value → value = name := by
  rw [TextMap.isSubmapOf_iff, machineLabels]
  simp only [TextMap.get?_insert]
  constructor
  · intro h value hvalue
    have hlabel := h machineLabel value hvalue
    rw [if_pos rfl] at hlabel
    exact (Option.some.inj hlabel).symm
  · intro h key value hvalue
    by_cases hkey : key = machineLabel
    · subst hkey
      rw [if_pos rfl, h value hvalue]
    · rw [if_neg hkey]
      exact hvalue

/-- The machines that a cluster lists are those of the namespace that carry the labels. -/
theorem Cluster.mem_listMachines_iff {c : Cluster} {ns : String} {labels : TextMap String}
    {vm : VirtualMachine} :
    vm ∈ c.listMachines ns labels
      ↔ c.machine? ns vm.metadata.shownName = some vm
        ∧ labels.isSubmapOf vm.metadata.labelMap = true := by
  have hentry (name : String) :
      (name, vm) ∈ (c.machines.within ns).entries ↔ c.machine? ns name = some vm :=
    (TextMap.get?_eq_some_iff _ name vm).symm
  rw [listMachines, List.mem_filter, List.mem_map]
  constructor
  · rintro ⟨⟨⟨name, vm⟩, hmem, rfl⟩, hlabels⟩
    have hfound : c.machine? ns name = some vm := (hentry name).mp hmem
    rw [shownName_of_machine? hfound]
    exact ⟨hfound, hlabels⟩
  · rintro ⟨hfound, hlabels⟩
    exact ⟨⟨(vm.metadata.shownName, vm), (hentry _).mpr hfound, rfl⟩, hlabels⟩

/-- A machine has its name under its identifier exactly when it is among the machines. -/
theorem get?_namesById {vms : List VirtualMachine} {name : String} :
    (namesById vms).get? (ProviderId.encode name) = some name
      ↔ ∃ vm ∈ vms, vm.metadata.shownName = name := by
  have hone : ∀ other, (ProviderId.encode name, other) ∈ vms.map (fun vm =>
      (ProviderId.encode vm.metadata.shownName, vm.metadata.shownName)) → other = name := by
    intro other hmem
    obtain ⟨vm, _, hvm⟩ := List.mem_map.mp hmem
    obtain ⟨hid, rfl⟩ := Prod.mk.inj hvm
    exact ProviderId.encode_inj hid
  rw [namesById, TextMap.get?_ofList_eq_some_iff hone, List.mem_map]
  constructor
  · rintro ⟨vm, hvm, h⟩
    exact ⟨vm, hvm, (Prod.mk.inj h).2⟩
  · rintro ⟨vm, hvm, rfl⟩
    exact ⟨vm, hvm, rfl⟩

/-! ## Listing what was created -/

section Listing

variable {terms : Cluster.Terms} {c d e : Cluster} {name ns : String}
  {spec : MachineSpec} {credentials : Credentials}

/-- A listing gives the machines of its namespace that carry the tags. -/
theorem Cluster.yields_listMachines_iff (hhome : terms.home credentials = .ok ns)
    {outcome : Outcome (TextMap String)} :
    c.Yields terms (MachineDriver.listMachines spec credentials) outcome
      ↔ outcome = .ok (namesById (c.listMachines ns spec.tags)) := by
  rw [MachineDriver.listMachines, yields_read_bind_iff (fun _ _ => Iff.rfl), hhome]
  dsimp only
  rw [yields_read_bind_iff (fun _ _ => Iff.rfl)]
  exact yields_pure_iff

theorem eq_of_runs_listMachines {events : List Event} {outcome : Outcome (TextMap String)}
    (h : (listMachines spec credentials).Runs events outcome)
    (hpath : Path (Cluster.Step terms) c events d) (hhome : terms.home credentials = .ok ns) :
    outcome = .ok (namesById (c.listMachines ns spec.tags)) :=
  (Cluster.yields_listMachines_iff hhome).mp ⟨events, d, h, hpath⟩

/-- **When a created machine is listed.** After a creation that succeeds, a listing with the same
    specification succeeds, and it gives the machine exactly when no tag of the specification is
    displaced by the name of the machine. -/
theorem listMachines_finds_created {created listed : List Event} {id : String}
    {outcome : Outcome (TextMap String)}
    (hcreate : (createMachine name spec credentials).Runs created (.ok id))
    (hcreated : Path (Cluster.Step terms) c created d)
    (hlist : (listMachines spec credentials).Runs listed outcome)
    (hlisted : Path (Cluster.Step terms) d listed e) :
    ∃ found, outcome = .ok found
      ∧ (found.get? (ProviderId.encode name) = some name
        ↔ ∀ value, spec.tags.get? machineLabel = some value → value = name) := by
  rcases cases_of_createMachine hcreate hcreated with ⟨⟨_, herror⟩, _⟩
    | ⟨_, p, preparation, uid, version, settled, hhome, _, _, rfl⟩
  · cases herror
  · have hstored :
        (c.withPlan p uid version).machine? p.ns name = some (p.created uid version) := by
      rw [← settled.name_eq]
      exact (Cluster.machine?_putMachine c (p.created uid version) _ _).trans (if_pos rfl)
    have hname : (p.created uid version).metadata.shownName = name :=
      Cluster.shownName_of_machine? hstored
    have hlabels : (p.created uid version).metadata.labelMap = machineLabels name spec.tags := by
      rw [← settled.name_eq, ← settled.spec_eq]
      rfl
    refine ⟨_, eq_of_runs_listMachines hlist hlisted hhome, ?_⟩
    rw [get?_namesById, ← machineLabels_carry_iff, ← hlabels]
    constructor
    · rintro ⟨vm, hvm, hshown⟩
      obtain ⟨hfound, hcarry⟩ := Cluster.mem_listMachines_iff.mp hvm
      rw [hshown, hstored] at hfound
      cases hfound
      exact hcarry
    · intro hcarry
      refine ⟨p.created uid version, Cluster.mem_listMachines_iff.mpr ⟨?_, hcarry⟩, hname⟩
      rw [hname]
      exact hstored

/-- A specification with a tag of its own, and with the fixed label for a machine of the name
    `a`. -/
def MachineSpec.tagged : MachineSpec :=
  { tags := (TextMap.empty.insert "env" "dev").insert machineLabel "a" }

/-- A machine with tags is listed after its creation. -/
theorem listMachines_finds_machine_with_tags :
    ∃ created listed d e found, (createMachine "a" .tagged {}).Runs created (.ok "kubevirt://a")
      ∧ Path (Cluster.Step (.fresh fun _ => .ok "default")) {} created d
      ∧ (listMachines .tagged {}).Runs listed (.ok found)
      ∧ Path (Cluster.Step (.fresh fun _ => .ok "default")) d listed e
      ∧ found.get? (ProviderId.encode "a") = some "a" := by
  obtain ⟨created, hcreate, hcreated, hfaultless⟩ :=
    World.faultless_of_empty.exists_halts (createMachine "a" .tagged {})
  obtain ⟨listed, hlist, hlisted, _⟩ := hfaultless.exists_halts (listMachines .tagged {})
  have hcreate' : (createMachine "a" .tagged {}).Runs created (.ok "kubevirt://a") := hcreate
  obtain ⟨outcome, hlist⟩ := hlist.exists_runs (listMachines_never_crashes _ _)
  obtain ⟨found, rfl, hiff⟩ := listMachines_finds_created hcreate' hcreated hlist hlisted
  have htags : MachineSpec.tagged.tags.get? machineLabel = some "a" := rfl
  refine ⟨created, listed, _, _, found, hcreate', hcreated, hlist, hlisted,
    hiff.mpr fun value hvalue => ?_⟩
  rw [htags, Option.some.injEq] at hvalue
  exact hvalue.symm

/-- A machine whose specification has the fixed label as a tag is not found by this
    specification. -/
theorem listMachines_misses_displaced_tag :
    ∃ w found, (createMachine "a" { tags := TextMap.empty.insert machineLabel "other" } {}).run
        World.answer {} = (some (.ok "kubevirt://a"), w)
      ∧ ((listMachines { tags := TextMap.empty.insert machineLabel "other" } {}).run
        World.answer w).1 = some (.ok found)
      ∧ found.get? (ProviderId.encode "a") = none :=
  ⟨_, TextMap.empty, rfl, rfl, rfl⟩

end Listing

end MachineDriver
