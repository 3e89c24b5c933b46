import MachineDriver.Proofs.Listing
import MachineDriver.Proofs.Shutdown

set_option autoImplicit false

/-!
# Listing, status and identifiers agree

Five operations tell the identifier of a machine: some of the name that they were asked for, some of
the name of the machine that they read, and the listing keeps names by the identifiers that it makes
of them. All agree in every cluster that operations can lead to, as long as no machine has an empty
name.

`Cluster.Named` is the invariant behind it. The outcomes of the operations in one cluster come
first, each as an equation; the main statement, `operations_agree`, puts them together. -/

namespace MachineDriver

open Program

/-! ## Outcomes of the operations -/

namespace Cluster

variable {terms : Terms} {c : Cluster} {ns name : String} {credentials : Credentials}

/-- What is read of a machine in a cluster. -/
theorem yields_getMachine_bind_iff {β : Type} {f : Outcome VirtualMachine → Program β} {v : β} :
    c.Yields terms (MachineDriver.getMachine ns name >>= f) v
      ↔ c.Yields terms (f (match c.machine? ns name with
        | some vm => .ok vm
        | none => .error (.machineNotFound name))) v := by
  rw [MachineDriver.getMachine, bind_assoc, yields_read_bind_iff (fun _ _ => Iff.rfl), getMachine]
  cases c.machine? ns name <;> rfl

/-- A status gives the identifier of a machine that exists. -/
theorem yields_machineStatus_iff (hhome : terms.home credentials = .ok ns)
    {outcome : Outcome String} :
    c.Yields terms (machineStatus name credentials) outcome
      ↔ outcome = if (c.machine? ns name).isSome then .ok (ProviderId.encode name)
        else .error (.machineNotFound name) := by
  rw [machineStatus, yields_read_bind_iff (fun _ _ => Iff.rfl), hhome]
  dsimp only
  rw [yields_getMachine_bind_iff]
  cases hvm : c.machine? ns name with
  | none => exact yields_pure_iff
  | some vm =>
      rw [← shownName_of_machine? hvm]
      exact yields_pure_iff

end Cluster

/-! ## Identifiers -/

section Identifiers

variable {terms : Cluster.Terms} {c : Cluster} {name id : String} {credentials : Credentials}

/-- A creation gives the identifier of the name that it was asked for. -/
theorem id_of_yields_createMachine {spec : MachineSpec}
    (h : c.Yields terms (createMachine name spec credentials) (.ok id)) :
    id = ProviderId.encode name := by
  obtain ⟨events, d, hruns, hpath⟩ := h
  rcases cases_of_createMachine hruns hpath with ⟨⟨_, herror⟩, _⟩ | ⟨hid, _⟩
  · cases herror
  · cases hid
    rfl

/-- A status gives the identifier of the name that it was asked for. -/
theorem id_of_yields_machineStatus
    (h : c.Yields terms (machineStatus name credentials) (.ok id)) :
    id = ProviderId.encode name := by
  cases hhome : terms.home credentials with
  | error e =>
      rw [machineStatus, Cluster.yields_read_bind_iff (fun _ _ => Iff.rfl), hhome] at h
      cases Cluster.yields_pure_iff.mp h
  | ok ns =>
      have hid := (Cluster.yields_machineStatus_iff hhome).mp h
      split at hid <;> cases hid
      rfl

/-- A shutdown gives the identifier of the machine that it found, which has the name that was asked
    for. -/
theorem id_of_yields_shutdownMachine {policy : RetryPolicy}
    (h : c.Yields terms (shutdownMachine policy name credentials) (.ok id)) :
    id = ProviderId.encode name := by
  rw [shutdownMachine, Cluster.yields_read_bind_iff (fun _ _ => Iff.rfl)] at h
  cases hhome : terms.home credentials with
  | error e =>
      rw [hhome] at h
      cases Cluster.yields_pure_iff.mp h
  | ok ns =>
      rw [hhome] at h
      dsimp only at h
      rw [Cluster.yields_getMachine_bind_iff] at h
      cases hvm : c.machine? ns name with
      | none =>
          rw [hvm] at h
          cases Cluster.yields_pure_iff.mp h
      | some vm =>
          rw [hvm] at h
          obtain ⟨events, d, hruns, _⟩ := h
          obtain ⟨_, _, result, _, _, hlast⟩ := runs_bind_iff.mp hruns
          rw [← Cluster.shownName_of_machine? hvm]
          cases result with
          | error fault => cases (runs_pure_iff.mp hlast).2
          | ok stored =>
              cases (runs_pure_iff.mp hlast).2
              rfl

end Identifiers

/-! ## Names that are not empty -/

/-- The machine that a command is about. -/
def Command.machine? : Command → Option String
  | .create name _ _ => some name
  | .list _ _ => none
  | .delete name _ => some name
  | .status name _ => some name
  | .shutdown name _ => some name

namespace Cluster

/-- No machine has an empty name. -/
def Named (c : Cluster) : Prop :=
  ∀ ns name vm, c.machine? ns name = some vm → name ≠ ""

namespace Named

variable {terms : Terms} {c d : Cluster}

theorem putMachine (hc : c.Named) {vm : VirtualMachine} (hvm : vm.metadata.shownName ≠ "") :
    (c.putMachine vm).Named := by
  intro ns name vm' h
  rw [machine?_putMachine] at h
  split at h
  · rename_i hkey
    have hname : name = vm.metadata.shownName := (Prod.ext_iff.mp hkey).2
    rw [hname]
    exact hvm
  · exact hc ns name vm' h

theorem dropMachine (hc : c.Named) (ns name : String) : (c.dropMachine ns name).Named := by
  intro ns' name' vm h
  rw [machine?_dropMachine] at h
  split at h
  · cases h
  · exact hc ns' name' vm h

/-- Calls that create nothing give no machine an empty name. -/
theorem step (hc : c.Named) {e : Event} (h : c.Step terms e d) (hcreates : e.call.creates = false) :
    d.Named := by
  obtain ⟨call, answer⟩ := e
  cases call with
  | createVirtualMachine vm => cases hcreates
  | createSecret s => cases hcreates
  | deleteVirtualMachine ns name =>
      rcases cases_of_deleted h with ⟨-, -, rfl⟩ | ⟨vm, -, -, rfl⟩
      · exact hc
      · exact hc.dropMachine ns name
  | setRunning ns name expected running =>
      obtain ⟨version, hset⟩ := h
      rcases cases_of_running hset with rfl | ⟨vm, hvm, rfl⟩
      · exact hc
      · have hname : vm.metadata.shownName = name := shownName_of_machine? hvm
        refine hc.putMachine ?_
        show vm.metadata.shownName ≠ ""
        rw [hname]
        exact hc ns name vm hvm
  | _ =>
      rw [eq_of_read h rfl]
      exact hc

/-- An operation on a machine whose name is not empty gives no machine an empty name. -/
theorem performs (hc : c.Named) {policy : RetryPolicy} {command : Command}
    (hcommand : ∀ name, command.machine? = some name → name ≠ "")
    (h : c.Performs terms policy command d) : d.Named := by
  refine h.keeps ?_ (fun u e w hstep hcreates hu => hu.step hstep hcreates) hc
  rintro name spec credentials p preparation uid version rfl settled _ _
  have hname : (p.created uid version).metadata.shownName ≠ "" := by
    show p.name ≠ ""
    rw [settled.name_eq]
    exact hcommand name rfl
  exact hc.putMachine hname

end Named

/-! ## Agreement -/

/-- What a listing finds: the machines of a namespace that carry all tags, each under an identifier
    that is read back as its name. -/
structure Lists (c : Cluster) (ns : String) (tags found : TextMap String) : Prop where
  /-- Every machine has an entry of its own, and there are no other entries. -/
  entries : ∃ names : List String, names.Nodup
    ∧ found.entries.Perm (names.map fun name => (ProviderId.encode name, name))
    ∧ ∀ name, name ∈ names ↔ ∃ vm, c.machine? ns name = some vm
      ∧ ∀ key value, tags.get? key = some value → vm.metadata.labelMap.get? key = some value
  decoded : ∀ id name, found.get? id = some name → ProviderId.decode id = .ok name

/-- What the operations tell of the machines of a cluster agrees. -/
structure Agrees (c : Cluster) (terms : Terms) (policy : RetryPolicy) : Prop where
  listing : ∀ spec credentials ns, terms.home credentials = .ok ns → ∃ found,
    (∀ outcome, c.Yields terms (MachineDriver.listMachines spec credentials) outcome
      ↔ outcome = .ok found)
    ∧ c.Lists ns spec.tags found
  /-- The status of a machine is its identifier in a listing without tags, if it is listed. -/
  status : ∀ spec credentials ns name listed, terms.home credentials = .ok ns →
    spec.tags = TextMap.empty →
    c.Yields terms (MachineDriver.listMachines spec credentials) (.ok listed) → ∃ told,
      (∀ outcome, c.Yields terms (machineStatus name credentials) outcome ↔ outcome = told)
      ∧ (∀ id, told = .ok id ↔ listed.get? id = some name)
      ∧ ((∀ id, listed.get? id ≠ some name) → told = .error (.machineNotFound name))
  identified : ∀ name credentials id, name ≠ "" →
    ((∃ spec, c.Yields terms (MachineDriver.createMachine name spec credentials) (.ok id))
      ∨ c.Yields terms (machineStatus name credentials) (.ok id)
      ∨ c.Yields terms (shutdownMachine policy name credentials) (.ok id)) →
    ProviderId.decode id = .ok name

variable {terms : Terms} {policy : RetryPolicy} {c d : Cluster} {ns name id : String}
  {tags : TextMap String}

theorem nodup_names_listMachines :
    ((c.listMachines ns tags).map fun vm => vm.metadata.shownName).Nodup := by
  have hkeys : (c.machines.within ns).entries.map (fun e => e.2.metadata.shownName)
      = (c.machines.within ns).entries.map Prod.fst := by
    refine List.map_congr_left fun e he => ?_
    exact shownName_of_machine? ((TextMap.get?_eq_some_iff _ e.1 e.2).mpr he)
  have hall : (((c.machines.within ns).entries.map Prod.snd).map
      fun vm => vm.metadata.shownName).Nodup := by
    rw [List.map_map, Function.comp_def, hkeys]
    exact TextMap.nodup_keys _
  exact (List.filter_sublist.map _).nodup hall

theorem entries_namesById_perm :
    (namesById (c.listMachines ns tags)).entries.Perm
      (((c.listMachines ns tags).map fun vm => vm.metadata.shownName).map
        fun name => (ProviderId.encode name, name)) := by
  have hids : (((c.listMachines ns tags).map fun vm => vm.metadata.shownName).map
      ProviderId.encode).Nodup :=
    List.Pairwise.map _ (fun _ _ hne heq => hne (ProviderId.encode_inj heq))
      nodup_names_listMachines
  rw [List.map_map] at hids ⊢
  refine TextMap.entries_ofList_perm ?_
  rw [List.map_map]
  exact hids

/-- The identifiers of a listing are those of the machines that it lists. -/
theorem get?_listed_iff :
    (namesById (c.listMachines ns tags)).get? id = some name
      ↔ id = ProviderId.encode name
        ∧ ∃ vm ∈ c.listMachines ns tags, vm.metadata.shownName = name := by
  rw [TextMap.get?_eq_some_iff, entries_namesById_perm.mem_iff, List.mem_map]
  simp only [List.mem_map, Prod.mk.injEq]
  constructor
  · rintro ⟨_, ⟨vm, hvm, rfl⟩, rfl, rfl⟩
    exact ⟨rfl, vm, hvm, rfl⟩
  · rintro ⟨rfl, vm, hvm, rfl⟩
    exact ⟨_, ⟨vm, hvm, rfl⟩, rfl, rfl⟩

/-- The machines of a namespace that carry tags, by their names. -/
theorem exists_listed_iff :
    (∃ vm ∈ c.listMachines ns tags, vm.metadata.shownName = name)
      ↔ ∃ vm, c.machine? ns name = some vm
        ∧ ∀ key value, tags.get? key = some value →
          vm.metadata.labelMap.get? key = some value := by
  simp only [mem_listMachines_iff, TextMap.isSubmapOf_iff]
  constructor
  · rintro ⟨vm, ⟨hvm, htags⟩, rfl⟩
    exact ⟨vm, hvm, htags⟩
  · rintro ⟨vm, hvm, htags⟩
    have hname : vm.metadata.shownName = name := shownName_of_machine? hvm
    exact ⟨vm, ⟨hname ▸ hvm, htags⟩, hname⟩

theorem Named.lists (hc : c.Named) :
    c.Lists ns tags (namesById (c.listMachines ns tags)) where
  entries := by
    refine ⟨_, nodup_names_listMachines, entries_namesById_perm, fun name => ?_⟩
    rw [← exists_listed_iff, List.mem_map]
  decoded := by
    intro id name h
    obtain ⟨rfl, hlisted⟩ := get?_listed_iff.mp h
    obtain ⟨vm, hvm, _⟩ := exists_listed_iff.mp hlisted
    exact ProviderId.decode_encode (hc ns name vm hvm)

/-- The operations agree where no machine has an empty name. -/
theorem Named.agrees (hc : c.Named) : c.Agrees terms policy where
  listing := fun spec credentials ns hhome =>
    ⟨_, fun _ => yields_listMachines_iff hhome, hc.lists⟩
  status := by
    intro spec credentials ns name listed hhome htags hlisted
    cases (yields_listMachines_iff hhome).mp hlisted
    refine ⟨_, fun _ => yields_machineStatus_iff hhome, ?_⟩
    have hiff (id : String) :
        (namesById (c.listMachines ns spec.tags)).get? id = some name
          ↔ id = ProviderId.encode name ∧ (c.machine? ns name).isSome := by
      rw [get?_listed_iff, exists_listed_iff, htags, Option.isSome_iff_exists]
      simp
    simp only [ne_eq, hiff]
    cases c.machine? ns name with
    | none => simp
    | some vm => simp [eq_comm]
  identified := by
    rintro name credentials id hname (⟨spec, h⟩ | h | h)
    · rw [id_of_yields_createMachine h]
      exact ProviderId.decode_encode hname
    · rw [id_of_yields_machineStatus h]
      exact ProviderId.decode_encode hname
    · rw [id_of_yields_shutdownMachine h]
      exact ProviderId.decode_encode hname

/-- **Listing, status and identifiers agree** in every cluster to which operations on machines lead
    whose names are not empty, from a cluster without machines of an empty name. -/
theorem operations_agree {commands : List Command} (hc : c.Named)
    (hcommands : ∀ command ∈ commands, ∀ name, command.machine? = some name → name ≠ "")
    (h : Path (Performs terms policy) c commands d) : d.Agrees terms policy := by
  have hd : d.Named := by
    refine h.invariant (fun command hcommand u w hstep hu => ?_) hc
    exact hu.performs (hcommands command hcommand) hstep
  exact hd.agrees

/-- The operations agree after a machine was created and stopped and another one was deleted. -/
theorem operations_agree_after_three :
    ∃ d, Path (Performs (.fresh fun _ => .ok "default") {}) {}
        [.create "a" {} {}, .shutdown "a" {}, .delete "b" {}] d
      ∧ (d.machine? "default" "a").isSome ∧ d.Agrees (.fresh fun _ => .ok "default") {} := by
  obtain ⟨hcreate, hfaultless⟩ := World.faultless_of_empty.performs {} (.create "a" {} {})
  obtain ⟨hshutdown, hfaultless⟩ := hfaultless.performs {} (.shutdown "a" {})
  obtain ⟨hdelete, _⟩ := hfaultless.performs {} (.delete "b" {})
  have hpath := path_cons_iff.mpr ⟨_, hcreate, path_cons_iff.mpr
    ⟨_, hshutdown, path_cons_iff.mpr ⟨_, hdelete, path_nil_iff.mpr rfl⟩⟩⟩
  have hnamed : Named {} := by
    intro ns name vm h
    cases h
  refine ⟨_, hpath, rfl, operations_agree hnamed ?_ hpath⟩
  intro command hcommand name hname
  simp only [List.mem_cons, List.not_mem_nil, or_false] at hcommand
  rcases hcommand with rfl | rfl | rfl <;> cases hname <;> decide

end Cluster

end MachineDriver
