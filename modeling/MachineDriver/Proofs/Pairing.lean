import MachineDriver.Proofs.Faultless

set_option autoImplicit false

/-!
# Machines and their secrets stay paired

In a cluster that one driver has for itself, every machine has one secret of user data and every
secret has its machine, whatever operations are performed and whether they succeed or not.

`Cluster.Paired` is the invariant. A creation keeps it because it stores a machine with its secret
or nothing at all; a deletion because the secrets of a machine go with it; a shutdown because it
changes nothing that ties the two together. Names of secrets are told apart by the names of their
machines, by `name_eq_of_userDataSecretName_eq`, since no number has a hyphen.

The clock is assumed to show a time since the beginning of 1970, whatever it shows, so that the
number in the name of a secret has no sign: it is an answer to `Call.now`. -/

namespace MachineDriver

open Program

/-! ## Names of secrets -/

theorem eq_of_append_cons_eq {α : Type} {a : α} {xs ys us vs : List α} (hus : a ∉ us) (hvs : a ∉ vs)
    (h : xs ++ a :: us = ys ++ a :: vs) : xs = ys := by
  rcases List.append_eq_append_iff.mp h with ⟨tail, rfl, htail⟩ | ⟨tail, rfl, htail⟩
  · cases tail with
    | nil => simp
    | cons b tail =>
        rw [List.cons_append, List.cons.injEq] at htail
        exact absurd (by simp [htail.2]) hus
  · cases tail with
    | nil => simp
    | cons b tail =>
        rw [List.cons_append, List.cons.injEq] at htail
        exact absurd (by simp [htail.2]) hvs

/-- Secrets of different machines have different names, whenever they are made. -/
theorem name_eq_of_userDataSecretName_eq {name name' : String} {seconds seconds' : Nat}
    (h : userDataSecretName name seconds = userDataSecretName name' seconds') : name = name' := by
  have hchars := congrArg String.toList h
  simp only [userDataSecretName, String.toList_append, String.toList_ofList, List.append_assoc,
    List.append_cancel_left_eq] at hchars
  have hname : name.toList = name'.toList :=
    eq_of_append_cons_eq (Text.notMem_decimal rfl seconds) (Text.notMem_decimal rfl seconds') hchars
  exact String.toList_inj.mp hname

theorem shownName_of_name {m : ObjectMeta} {name : String} (h : m.name = some name) :
    m.shownName = name := by
  rw [ObjectMeta.shownName, h]
  rfl

/-! ## Pairs -/

/-- The names of the secrets that a machine reads at its first start. -/
def VirtualMachine.settingsSecrets (vm : VirtualMachine) : List String :=
  vm.spec.template.spec.volumes.filterMap fun v =>
    v.cloudInitNoCloud.bind fun settings => settings.userDataSecretRef.map LocalReference.name

/-- A machine and its secret: they are in one namespace, the machine is the only owner of the secret
    and controls it, and the secret has the name that the machine reads at its first start. -/
structure Belongs (vm : VirtualMachine) (s : Secret) : Prop where
  ns_eq : s.metadata.ns? = vm.metadata.ns?
  owned : ∃ owner, s.metadata.ownerReferences = some [owner] ∧ owner.controller = some true
    ∧ owner.kind = VirtualMachine.resource.kind ∧ vm.metadata.name = some owner.name
    ∧ vm.metadata.uid = some owner.uid
  named : ∃ seconds, s.metadata.name = some (userDataSecretName vm.metadata.shownName seconds)
  mounted : vm.settingsSecrets = [s.metadata.shownName]

namespace Belongs

variable {vm other : VirtualMachine} {s : Secret}

/-- A secret that belongs to a machine is owned by the identity of this machine and by no other. -/
theorem isOwnedBy_iff (h : Belongs vm s) (uid : String) :
    Cluster.isOwnedBy uid s = true ↔ vm.metadata.uid = some uid := by
  obtain ⟨owner, howners, _, _, _, huid⟩ := h.owned
  simp [Cluster.isOwnedBy, howners, huid]

/-- A secret belongs to the machine of one namespace and name only. -/
theorem key_eq (h : Belongs vm s) (h' : Belongs other s) :
    vm.metadata.key = other.metadata.key := by
  obtain ⟨owner, howners, _, _, hname, _⟩ := h.owned
  obtain ⟨owner', howners', _, _, hname', _⟩ := h'.owned
  rw [howners] at howners'
  cases howners'
  rw [ObjectMeta.key, ObjectMeta.key, shownName_of_name hname, shownName_of_name hname', ← h.ns_eq,
    ← h'.ns_eq]

/-- Machines whose secrets have the same namespace and name have the same namespace and name. -/
theorem key_eq_of_secret_key_eq {s' : Secret} (h : Belongs vm s) (h' : Belongs other s')
    (hkey : s.metadata.key = s'.metadata.key) : vm.metadata.key = other.metadata.key := by
  obtain ⟨seconds, hname⟩ := h.named
  obtain ⟨seconds', hname'⟩ := h'.named
  rw [ObjectMeta.key, ObjectMeta.key, h.ns_eq, h'.ns_eq, Prod.mk.injEq] at hkey
  have hshown : vm.metadata.shownName = other.metadata.shownName := by
    rw [shownName_of_name hname, shownName_of_name hname'] at hkey
    exact name_eq_of_userDataSecretName_eq hkey.2
  rw [ObjectMeta.key, ObjectMeta.key, hkey.1, hshown]

end Belongs

/-- The machine of a plan and its secret. -/
theorem Plan.belongs_secret {p : Plan} {name : String} {spec : MachineSpec}
    {credentials : Credentials} {preparation : List Event}
    (settled : p.Settled name spec credentials preparation) (uid version : String) :
    Belongs (p.created uid version) (p.secret (p.created uid version)) where
  ns_eq := rfl
  owned := ⟨_, rfl, rfl, rfl, rfl, rfl⟩
  named := by
    obtain ⟨seconds, _, _, _, hsecret, _⟩ := settled.calls
    refine ⟨seconds, congrArg some ?_⟩
    rw [hsecret, ← settled.name_eq]
    rfl
  mounted := rfl

/-! ## The invariant -/

namespace Cluster

/-- The secrets that a machine owns. -/
def secretsOf (c : Cluster) (vm : VirtualMachine) : List Secret :=
  match vm.metadata.uid with
  | none => []
  | some uid => c.secrets.filter (isOwnedBy uid)

/-- Every machine owns one secret, which belongs to it; every secret is owned by a machine; and no
    two secrets of a namespace have the same name. -/
structure Paired (c : Cluster) : Prop where
  secret_of : ∀ ns name vm, c.machine? ns name = some vm →
    ∃ s, c.secretsOf vm = [s] ∧ Belongs vm s
  machine_of : ∀ s ∈ c.secrets, ∃ ns name vm, c.machine? ns name = some vm ∧ s ∈ c.secretsOf vm
  distinct : (c.secrets.map fun s => s.metadata.key).Nodup

variable {c d : Cluster} {ns name uid version : String}

theorem secretsOf_of_uid {vm : VirtualMachine} (h : vm.metadata.uid = some uid) :
    c.secretsOf vm = c.secrets.filter (isOwnedBy uid) := by
  rw [secretsOf, h]

theorem mem_secretsOf_iff {vm : VirtualMachine} {s : Secret} :
    s ∈ c.secretsOf vm
      ↔ s ∈ c.secrets ∧ ∃ uid, vm.metadata.uid = some uid ∧ isOwnedBy uid s = true := by
  unfold secretsOf
  split
  · rename_i hnone
    simp [hnone]
  · rename_i uid huid
    simp [huid]

namespace Paired

theorem of_empty (hmachines : ∀ ns name, c.machine? ns name = none) (hsecrets : c.secrets = []) :
    c.Paired where
  secret_of := by
    intro ns name vm h
    rw [hmachines ns name] at h
    cases h
  machine_of := by simp [hsecrets]
  distinct := by simp [hsecrets]

/-- The machine that a secret belongs to. -/
theorem exists_belongs (hc : c.Paired) {s : Secret} (hs : s ∈ c.secrets) :
    ∃ ns name vm, c.machine? ns name = some vm ∧ Belongs vm s ∧ c.secretsOf vm = [s] := by
  obtain ⟨ns, name, vm, hvm, hmem⟩ := hc.machine_of s hs
  obtain ⟨s', hsecrets, hbelongs⟩ := hc.secret_of ns name vm hvm
  rw [hsecrets, List.mem_singleton] at hmem
  subst hmem
  exact ⟨ns, name, vm, hvm, hbelongs, hsecrets⟩

/-! ### Creation -/

/-- Nothing is owned by an identity that no machine has. -/
theorem filter_isOwnedBy_of_isFresh (hc : c.Paired) (hfresh : c.IsFresh uid) :
    c.secrets.filter (isOwnedBy uid) = [] := by
  rw [List.filter_eq_nil_iff]
  intro s hs
  obtain ⟨ns, name, vm, hvm, hbelongs, _⟩ := hc.exists_belongs hs
  rw [hbelongs.isOwnedBy_iff]
  exact hfresh ns name vm hvm

/-- The secret of a machine that does not exist yet has a namespace and a name of its own. -/
theorem key_notMem_of_none (hc : c.Paired) {vm : VirtualMachine} {s : Secret}
    (hbelongs : Belongs vm s)
    (hnone : c.machine? vm.metadata.key.1 vm.metadata.key.2 = none) :
    s.metadata.key ∉ c.secrets.map fun s => s.metadata.key := by
  intro hmem
  obtain ⟨s', hs', hkey⟩ := List.mem_map.mp hmem
  obtain ⟨ns, name, vm', hvm', hbelongs', _⟩ := hc.exists_belongs hs'
  have hsame : (ns, name) = vm.metadata.key :=
    (key_of_machine? hvm').symm.trans (hbelongs'.key_eq_of_secret_key_eq hbelongs hkey)
  rw [← hsame, hvm'] at hnone
  cases hnone

/-- A machine is added together with a secret that belongs to it. -/
theorem add (hc : c.Paired) {vm : VirtualMachine} {s : Secret} (hbelongs : Belongs vm s)
    (huid : vm.metadata.uid = some uid) (hfresh : c.IsFresh uid)
    (hnone : c.machine? vm.metadata.key.1 vm.metadata.key.2 = none) :
    ((c.putMachine vm).createSecret s).2.Paired where
  secret_of := by
    intro ns name vm' hvm'
    have hfound : (c.putMachine vm).machine? ns name = some vm' := hvm'
    rw [machine?_putMachine] at hfound
    split at hfound
    · cases hfound
      have hnew : isOwnedBy uid s = true := (hbelongs.isOwnedBy_iff uid).mpr huid
      refine ⟨s, ?_, hbelongs⟩
      rw [secretsOf_of_uid huid]
      simp [createSecret, hc.filter_isOwnedBy_of_isFresh hfresh, hnew]
    · obtain ⟨s', hsecrets, hbelongs'⟩ := hc.secret_of ns name vm' hfound
      obtain ⟨owner, _, _, _, _, huid'⟩ := hbelongs'.owned
      have hnew : isOwnedBy owner.uid s = false := by
        rw [Bool.eq_false_iff, ne_eq, hbelongs.isOwnedBy_iff, huid]
        intro heq
        exact hfresh ns name vm' hfound (huid'.trans heq.symm)
      rw [secretsOf_of_uid huid'] at hsecrets
      refine ⟨s', ?_, hbelongs'⟩
      rw [secretsOf_of_uid huid']
      simp [createSecret, hsecrets, hnew]
  machine_of := by
    intro s' hs'
    rcases List.mem_append.mp hs' with hs' | hs'
    · obtain ⟨ns, name, vm', hvm', hmem⟩ := hc.machine_of s' hs'
      obtain ⟨_, howned⟩ := mem_secretsOf_iff.mp hmem
      have hother : (ns, name) ≠ vm.metadata.key := by
        intro hkey
        rw [← hkey, hvm'] at hnone
        cases hnone
      refine ⟨ns, name, vm', ?_, mem_secretsOf_iff.mpr ⟨List.mem_append_left [s] hs', howned⟩⟩
      exact (machine?_putMachine c vm ns name).trans ((if_neg hother).trans hvm')
    · cases List.mem_singleton.mp hs'
      refine ⟨vm.metadata.key.1, vm.metadata.key.2, vm, ?_,
        mem_secretsOf_iff.mpr ⟨?_, uid, huid, ?_⟩⟩
      · exact (machine?_putMachine c vm _ _).trans (if_pos rfl)
      · exact List.mem_append_right c.secrets List.mem_cons_self
      · exact (hbelongs.isOwnedBy_iff uid).mpr huid
  distinct := by
    simp only [createSecret, secrets_putMachine, List.map_append, List.map_cons, List.map_nil]
    refine List.nodup_append.mpr ⟨hc.distinct, by simp, ?_⟩
    rintro key hkey key' hkey' rfl
    rw [List.mem_singleton.mp hkey'] at hkey
    exact hc.key_notMem_of_none hbelongs hnone hkey

/-! ### Deletion -/

/-- What is owned by the identity of a machine belongs to the machine. -/
theorem belongs_of_isOwnedBy (hc : c.Paired) {vm : VirtualMachine} {s : Secret}
    (hvm : c.machine? ns name = some vm) (huid : vm.metadata.uid = some uid) (hs : s ∈ c.secrets)
    (howned : isOwnedBy uid s = true) : Belongs vm s := by
  obtain ⟨s', hsecrets, hbelongs⟩ := hc.secret_of ns name vm hvm
  have hmem : s ∈ c.secretsOf vm := mem_secretsOf_iff.mpr ⟨hs, uid, huid, howned⟩
  rw [hsecrets, List.mem_singleton] at hmem
  rw [hmem]
  exact hbelongs

/-- A machine is removed together with the secrets that it owns. -/
theorem remove (hc : c.Paired) {vm : VirtualMachine} (hvm : c.machine? ns name = some vm)
    (huid : vm.metadata.uid = some uid) (hmachines : ∀ ns' name',
      d.machine? ns' name' = if (ns', name') = (ns, name) then none else c.machine? ns' name')
    (hsecrets : d.secrets = c.secrets.filter fun s => !isOwnedBy uid s) : d.Paired where
  secret_of := by
    intro ns' name' vm' hvm'
    rw [hmachines] at hvm'
    split at hvm'
    · cases hvm'
    · rename_i hkey
      obtain ⟨s, hone, hbelongs⟩ := hc.secret_of ns' name' vm' hvm'
      obtain ⟨owner, _, _, _, _, huid'⟩ := hbelongs.owned
      rw [secretsOf_of_uid huid'] at hone
      have hs : s ∈ c.secrets := (List.mem_filter.mp (hone ▸ List.mem_singleton_self s)).1
      have hkept : isOwnedBy uid s = false := by
        rw [Bool.eq_false_iff]
        intro howned
        have hsame := hbelongs.key_eq (hc.belongs_of_isOwnedBy hvm huid hs howned)
        rw [key_of_machine? hvm', key_of_machine? hvm] at hsame
        exact hkey hsame
      refine ⟨s, ?_, hbelongs⟩
      calc d.secretsOf vm'
          = (c.secrets.filter fun s => !isOwnedBy uid s).filter (isOwnedBy owner.uid) := by
            rw [secretsOf_of_uid huid', hsecrets]
        _ = (c.secrets.filter (isOwnedBy owner.uid)).filter fun s => !isOwnedBy uid s := by
            simp only [List.filter_filter, Bool.and_comm]
        _ = [s] := by
            rw [hone]
            simp [hkept]
  machine_of := by
    intro s hs
    rw [hsecrets, List.mem_filter] at hs
    obtain ⟨ns', name', vm', hvm', hmem⟩ := hc.machine_of s hs.1
    obtain ⟨_, uid', huid', howned⟩ := mem_secretsOf_iff.mp hmem
    refine ⟨ns', name', vm', ?_, mem_secretsOf_iff.mpr ⟨?_, uid', huid', howned⟩⟩
    · rw [hmachines, if_neg, hvm']
      intro hkey
      cases hkey
      rw [hvm] at hvm'
      cases hvm'
      rw [huid] at huid'
      cases huid'
      simp [howned] at hs
    · rw [hsecrets]
      exact List.mem_filter.mpr hs
  distinct := by
    rw [hsecrets]
    exact (List.filter_sublist.map _).nodup hc.distinct

theorem delete (hc : c.Paired) {answer : Except StoreError Unit}
    (h : (answer, d) = c.deleteMachine ns name) : d.Paired := by
  rcases cases_of_deleted h with ⟨-, -, rfl⟩ | ⟨vm, hvm, -, rfl⟩
  · exact hc
  · obtain ⟨s, _, hbelongs⟩ := hc.secret_of ns name vm hvm
    obtain ⟨owner, _, _, _, _, huid⟩ := hbelongs.owned
    exact hc.remove hvm huid (machine?_without c ns name vm) (by rw [without, owns_of_uid huid])

/-! ### Shutdown -/

/-- A machine is replaced by one to which the same secrets belong. -/
theorem replace (hc : c.Paired) {vm vm' : VirtualMachine} (hvm : c.machine? ns name = some vm)
    (hkey : vm'.metadata.key = (ns, name)) (huid : vm'.metadata.uid = vm.metadata.uid)
    (hbelongs : ∀ s, Belongs vm s → Belongs vm' s) : (c.putMachine vm').Paired where
  secret_of := by
    intro ns' name' vm'' hvm''
    rw [machine?_putMachine] at hvm''
    split at hvm''
    · cases hvm''
      obtain ⟨s, hone, h⟩ := hc.secret_of ns name vm hvm
      refine ⟨s, ?_, hbelongs s h⟩
      rw [← hone, secretsOf, secretsOf, huid]
      rfl
    · exact hc.secret_of ns' name' vm'' hvm''
  machine_of := by
    intro s hs
    obtain ⟨ns', name', vm'', hvm'', hmem⟩ := hc.machine_of s hs
    obtain ⟨_, uid, huid'', howned⟩ := mem_secretsOf_iff.mp hmem
    by_cases hsame : (ns', name') = (ns, name)
    · cases hsame
      rw [hvm] at hvm''
      cases hvm''
      refine ⟨ns, name, vm', ?_, mem_secretsOf_iff.mpr ⟨hs, uid, huid.trans huid'', howned⟩⟩
      rw [machine?_putMachine, if_pos hkey.symm]
    · refine ⟨ns', name', vm'', ?_, mem_secretsOf_iff.mpr ⟨hs, uid, huid'', howned⟩⟩
      rw [machine?_putMachine, hkey, if_neg hsame]
      exact hvm''
  distinct := hc.distinct

theorem running (hc : c.Paired) {expected : Option String} {running : Bool}
    {answer : Except StoreError VirtualMachine}
    (h : (answer, d) = c.setRunning version ns name expected running) : d.Paired := by
  rcases cases_of_running h with rfl | ⟨vm, hvm, rfl⟩
  · exact hc
  · have hkey : vm.metadata.key = (ns, name) := key_of_machine? hvm
    exact hc.replace hvm hkey rfl fun s hs => ⟨hs.ns_eq, hs.owned, hs.named, hs.mounted⟩

/-! ### Operations -/

variable {home : Credentials → Outcome String}

/-- Calls that create nothing keep machines and secrets paired. -/
theorem step (hc : c.Paired) {e : Event} (h : c.Step (.fresh home) e d)
    (hcreates : e.call.creates = false) : d.Paired := by
  obtain ⟨call, answer⟩ := e
  cases call with
  | createVirtualMachine vm => cases hcreates
  | createSecret s => cases hcreates
  | deleteVirtualMachine ns name => exact hc.delete h
  | setRunning ns name expected running =>
      obtain ⟨version, hset⟩ := h
      exact hc.running hset
  | _ =>
      rw [eq_of_read h rfl]
      exact hc

/-- Every operation keeps machines and secrets paired. -/
theorem performs (hc : c.Paired) {policy : RetryPolicy} {command : Command}
    (h : c.Performs (.fresh home) policy command d) : d.Paired := by
  refine h.keeps ?_ (fun u e w hstep hcreates hu => hu.step hstep hcreates) hc
  intro name spec credentials p preparation uid version _ settled hfresh hnone
  exact hc.add (p.belongs_secret settled uid version) rfl hfresh hnone

end Paired

/-- **Machines and secrets stay paired.** From a cluster without machines and secrets, any
    operations lead to one in which every machine has one secret, every secret has its machine, and
    no two secrets of a namespace have the same name. -/
theorem paired_of_operations {home : Credentials → Outcome String} {policy : RetryPolicy}
    {commands : List Command} (hmachines : ∀ ns name, c.machine? ns name = none)
    (hsecrets : c.secrets = []) (h : Path (Performs (.fresh home) policy) c commands d) :
    d.Paired :=
  h.invariant (fun _ _ _ _ hstep hu => hu.performs hstep) (.of_empty hmachines hsecrets)

/-- A machine that is created and then stopped has one secret all the while. -/
theorem paired_of_creation_and_shutdown :
    ∃ d, Path (Performs (.fresh fun _ => .ok "default") {}) {}
        [.create "a" {} {}, .shutdown "a" {}] d
      ∧ d.secrets.length = 1 ∧ d.Paired := by
  obtain ⟨hcreate, hfaultless⟩ := World.faultless_of_empty.performs {} (.create "a" {} {})
  obtain ⟨hshutdown, _⟩ := hfaultless.performs {} (.shutdown "a" {})
  have hpath := path_cons_iff.mpr
    ⟨_, hcreate, path_cons_iff.mpr ⟨_, hshutdown, path_nil_iff.mpr rfl⟩⟩
  exact ⟨_, hpath, rfl, paired_of_operations (fun _ _ => rfl) rfl hpath⟩

/-- Secrets of different namespaces may have the same name: those of two machines of one name that
    are created in the same second. -/
theorem secrets_of_two_namespaces_share_a_name :
    ∃ home d, Path (Performs (.fresh home) {}) {}
        [.create "a" {} {}, .create "a" {} { data := TextMap.empty.insert "kubeconfig" [0] }] d
      ∧ ¬ (d.secrets.map fun s => s.metadata.name).Nodup := by
  let home : Credentials → Outcome String := fun credentials =>
    .ok (if credentials = {} then "one" else "two")
  let c : Cluster := Cluster.withPlan {} (.bare "a" "one" 0 "") "first" "1"
  have hfirst : Performs (.fresh home) {} {} (.create "a" {} {}) c :=
    performs_bare 0 rfl rfl (fun _ _ _ h => by cases h)
  have hfresh : c.IsFresh "second" := by
    intro ns name vm hvm heq
    have hfound : (Cluster.putMachine {} (Plan.created (.bare "a" "one" 0 "") "first" "1")).machine?
        ns name = some vm := hvm
    rw [machine?_putMachine] at hfound
    split at hfound
    · cases hfound
      have hsame : "first" = "second" := Option.some.inj heq
      exact absurd hsame (by decide)
    · cases hfound
  have hsecond : Performs (.fresh home) {} c
      (.create "a" {} { data := TextMap.empty.insert "kubeconfig" [0] })
      (c.withPlan (.bare "a" "two" 0 "") "second" "2") :=
    performs_bare 0 rfl rfl hfresh
  refine ⟨home, _, ⟨c, hfirst, _, hsecond, rfl⟩, ?_⟩
  let shared := userDataSecretName "a" 0
  have hnames : (c.withPlan (.bare "a" "two" 0 "") "second" "2").secrets.map
      (fun s => s.metadata.name) = [some shared, some shared] := rfl
  rw [hnames]
  simp

end Cluster

end MachineDriver
