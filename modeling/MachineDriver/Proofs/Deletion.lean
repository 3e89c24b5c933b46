import MachineDriver.Proofs.Growth
import MachineDriver.Proofs.Pairing

set_option autoImplicit false

/-!
# Deletion removes one machine

A deletion reads its machine and then deletes it. Between its calls others may do to the cluster
whatever they like, except create this machine anew, and any call may be refused.

`DeleteCourse` lists the courses of a deletion with their outcomes. What its calls leave alone in a
cluster is said by `Cluster.SparesOthers`. That the machine is gone after a success follows from
`Cluster.machine?_eq_none_of_last`: the last call has seen to it, and nobody brings the machine
back. The main statement is `deleteMachine_removes_one_machine`. -/

namespace MachineDriver

open Program

/-! ## Courses -/

/-- The courses that the deletion of a machine can take in a namespace: its calls with their
    answers, and its outcome. -/
inductive DeleteCourse (ns name : String) (credentials : Credentials) :
    List Event → Outcome String → Prop where
  | absent :
      DeleteCourse ns name credentials
        [⟨.client credentials, .ok ns⟩, ⟨.getVirtualMachine ns name, .error .notFound⟩] (.ok "")
  | unread (fault : StoreError) (h : fault ≠ .notFound) :
      DeleteCourse ns name credentials
        [⟨.client credentials, .ok ns⟩, ⟨.getVirtualMachine ns name, .error fault⟩]
        (.error (.object .get "VirtualMachine" name fault))
  | removed (vm : VirtualMachine) :
      DeleteCourse ns name credentials
        [⟨.client credentials, .ok ns⟩, ⟨.getVirtualMachine ns name, .ok vm⟩,
          ⟨.deleteVirtualMachine ns name, .ok ()⟩] (.ok (ProviderId.encode name))
  /-- Somebody else removed the machine after it was read. -/
  | vanished (vm : VirtualMachine) :
      DeleteCourse ns name credentials
        [⟨.client credentials, .ok ns⟩, ⟨.getVirtualMachine ns name, .ok vm⟩,
          ⟨.deleteVirtualMachine ns name, .error .notFound⟩] (.ok (ProviderId.encode name))
  | refused (vm : VirtualMachine) (fault : StoreError) (h : fault ≠ .notFound) :
      DeleteCourse ns name credentials
        [⟨.client credentials, .ok ns⟩, ⟨.getVirtualMachine ns name, .ok vm⟩,
          ⟨.deleteVirtualMachine ns name, .error fault⟩]
        (.error (.object .delete "VirtualMachine" name fault))

section Courses

variable {ns name : String} {credentials : Credentials} {events : List Event}
  {outcome : Outcome String}

/-- The traces of a deletion are its courses where clients get one namespace and what is read under
    a name bears that name. -/
theorem deleteCourse_of_runs (h : (deleteMachine name credentials).Runs events outcome)
    (hclient : ∀ answer, ⟨.client credentials, answer⟩ ∈ events → answer = .ok ns)
    (hname : ∀ vm, ⟨.getVirtualMachine ns name, .ok vm⟩ ∈ events →
      vm.metadata.shownName = name) :
    DeleteCourse ns name credentials events outcome := by
  unfold deleteMachine at h
  obtain ⟨client, rest, rfl, hrest⟩ := runs_call_bind_iff.mp h
  cases hclient client List.mem_cons_self
  obtain ⟨read, last, found, rfl, hread, hlast⟩ := runs_bind_iff.mp hrest
  rcases runs_getMachine_iff.mp hread with ⟨vm, rfl, rfl⟩ | ⟨rfl, rfl⟩ | ⟨fault, hfault, rfl, rfl⟩
  · obtain rfl : vm.metadata.shownName = name := hname vm (by simp)
    obtain ⟨answer, rest, rfl, hanswer⟩ := runs_call_bind_iff.mp hlast
    split at hanswer
    · obtain ⟨rfl, rfl⟩ := runs_pure_iff.mp hanswer
      exact .removed vm
    · obtain ⟨rfl, rfl⟩ := runs_pure_iff.mp hanswer
      exact .vanished vm
    · rename_i hfault
      obtain ⟨rfl, rfl⟩ := runs_pure_iff.mp hanswer
      exact .refused vm _ hfault
  · obtain ⟨rfl, rfl⟩ := runs_pure_iff.mp hlast
    exact .absent
  · obtain ⟨rfl, rfl⟩ := runs_pure_iff.mp hlast
    exact .unread fault hfault

theorem DeleteCourse.calls (h : DeleteCourse ns name credentials events outcome) :
    ∀ e ∈ events, e.call.isMutating = false ∨ e.call = .deleteVirtualMachine ns name := by
  cases h <;> simp [Call.isMutating]

end Courses

/-! ## Clusters in which others act -/

/-- Why a call to a cluster failed, if it did. -/
def Event.fault? : Event → Option StoreError
  | ⟨.getVirtualMachine .., .error fault⟩ => some fault
  | ⟨.listVirtualMachines .., .error fault⟩ => some fault
  | ⟨.createVirtualMachine _, .error fault⟩ => some fault
  | ⟨.setRunning .., .error fault⟩ => some fault
  | ⟨.deleteVirtualMachine .., .error fault⟩ => some fault
  | ⟨.getDataVolume .., .error fault⟩ => some fault
  | ⟨.createSecret _, .error fault⟩ => some fault
  | _ => none

/-- The call failed, but not because its object does not exist. -/
def Event.IsRefused (e : Event) : Prop :=
  ∃ fault, e.fault? = some fault ∧ fault ≠ .notFound

/-- What happens to a cluster: a call of ours, or something that others do. -/
abbrev Turn := Option Event

/-- Our calls among all that happens. -/
def ownCalls (turns : List Turn) : List Event :=
  turns.filterMap id

theorem mem_ownCalls_iff {turns : List Turn} {e : Event} : e ∈ ownCalls turns ↔ some e ∈ turns := by
  simp [ownCalls]

namespace Cluster

variable {home : Credentials → Outcome String} {ns name : String} {c d : Cluster}

/-- What may become of a cluster around the machine of a namespace and a name: our calls are
    answered or refused, and a call that is refused changes nothing; others do whatever they like,
    but they do not create the machine. -/
def Meets (home : Credentials → Outcome String) (ns name : String) (c : Cluster) :
    Turn → Cluster → Prop
  | some e, d => c.Step (.unused home) e d ∨ e.IsRefused ∧ d = c
  | none, d => c.machine? ns name = none → d.machine? ns name = none

/-- `d` is the cluster `c`, perhaps without the machine of a namespace and a name and the secrets
    that are owned by the identity of this machine. -/
structure SparesOthers (ns name : String) (c d : Cluster) : Prop where
  machines : ∀ ns' name', (ns', name') ≠ (ns, name) → d.machine? ns' name' = c.machine? ns' name'
  machine : d.machine? ns name = c.machine? ns name ∨ d.machine? ns name = none
  secrets : d.secrets = c.secrets
    ∨ ∃ vm, c.machine? ns name = some vm ∧ d.secrets = c.secrets.filter fun s => !owns vm s
  volumes : d.volumes = c.volumes

theorem SparesOthers.refl (ns name : String) (c : Cluster) : c.SparesOthers ns name c where
  machines := fun _ _ _ => rfl
  machine := .inl rfl
  secrets := .inl rfl
  volumes := rfl

/-- A call that only reads leaves a cluster as it is. -/
theorem eq_of_meets {e : Event} (h : c.Meets home ns name (some e) d)
    (hread : e.call.isMutating = false) : d = c := by
  rcases h with hstep | ⟨-, rfl⟩
  · exact eq_of_read hstep hread
  · rfl

/-- The calls of a deletion spare the other machines and what they own. -/
theorem sparesOthers_of_meets {e : Event} (h : c.Meets home ns name (some e) d)
    (he : e.call.isMutating = false ∨ e.call = .deleteVirtualMachine ns name) :
    c.SparesOthers ns name d := by
  rcases he with hread | hdelete
  · rw [eq_of_meets h hread]
    exact .refl ns name c
  · obtain ⟨call, answer⟩ := e
    cases hdelete
    rcases h with hstep | ⟨-, rfl⟩
    · rcases cases_of_deleted hstep with ⟨-, -, rfl⟩ | ⟨vm, hvm, -, rfl⟩
      · exact .refl ns name d
      · exact
          { machines := fun ns' name' hne => by rw [machine?_without, if_neg hne]
            machine := .inr (by rw [machine?_without, if_pos rfl])
            secrets := .inr ⟨vm, hvm, rfl⟩
            volumes := rfl }
    · exact .refl ns name d

/-- Nobody brings the machine back. -/
theorem machine?_eq_none_of_meets {turn : Turn} (h : c.Meets home ns name turn d)
    (hcreates : ∀ e, turn = some e → e.call.creates = false) (hnone : c.machine? ns name = none) :
    d.machine? ns name = none := by
  cases turn with
  | none => exact h hnone
  | some e =>
      have hcreates := hcreates e rfl
      rcases h with hstep | ⟨-, rfl⟩
      · obtain ⟨call, answer⟩ := e
        cases call with
        | createVirtualMachine vm => cases hcreates
        | createSecret s => cases hcreates
        | deleteVirtualMachine ns' name' =>
            rcases cases_of_deleted hstep with ⟨-, -, rfl⟩ | ⟨vm, -, -, rfl⟩
            · exact hnone
            · rw [machine?_without]
              split
              · rfl
              · exact hnone
        | setRunning ns' name' expected running =>
            obtain ⟨version, hset⟩ := hstep
            rcases cases_of_running hset with rfl | ⟨vm, hvm, rfl⟩
            · exact hnone
            · rw [machine?_putMachine, if_neg, hnone]
              intro hkey
              have hfound : vm.metadata.key = (ns', name') := key_of_machine? hvm
              cases hkey.trans hfound
              rw [hnone] at hvm
              cases hvm
        | _ =>
            rw [eq_of_read hstep rfl]
            exact hnone
      · exact hnone

variable {turns : List Turn}

/-- A machine that is not there stays away as long as we create nothing. -/
theorem machine?_eq_none_of_path (h : Path (Meets home ns name) c turns d)
    (hcreates : ∀ e ∈ ownCalls turns, e.call.creates = false) (hnone : c.machine? ns name = none) :
    d.machine? ns name = none := by
  refine h.invariant (I := fun u => u.machine? ns name = none) (fun turn hturn u w hmeets hu => ?_)
    hnone
  refine machine?_eq_none_of_meets hmeets ?_ hu
  rintro e rfl
  exact hcreates e (mem_ownCalls_iff.mpr hturn)

/-- If the last of our calls leaves a cluster without the machine, then the machine is not there
    in the end. -/
theorem machine?_eq_none_of_last {earlier : List Event} {e : Event}
    (h : Path (Meets home ns name) c turns d) (hlast : ownCalls turns = earlier ++ [e])
    (hnone : ∀ u w, Meets home ns name u (some e) w → w.machine? ns name = none) :
    d.machine? ns name = none := by
  -- Up to the last call nothing is known of the machine; from then on it stays away.
  induction turns generalizing c earlier with
  | nil => simp [ownCalls] at hlast
  | cons turn rest ih =>
      obtain ⟨u, hmeets, hrest⟩ := h
      cases turn with
      | none => exact ih hrest hlast
      | some e' =>
          have hcalls : e' :: ownCalls rest = earlier ++ [e] := hlast
          cases earlier with
          | nil =>
              rw [List.nil_append, List.cons.injEq] at hcalls
              obtain ⟨rfl, hnil⟩ := hcalls
              exact machine?_eq_none_of_path hrest (by simp [hnil]) (hnone c u hmeets)
          | cons first earlier =>
              rw [List.cons_append, List.cons.injEq] at hcalls
              exact ih hrest hcalls.2

end Cluster

/-! ## Calls of a deletion -/

section Calls

variable {home : Credentials → Outcome String} {ns name : String} {credentials : Credentials}
  {c d : Cluster}

theorem home_of_meets {answer : Outcome String}
    (h : c.Meets home ns name (some ⟨.client credentials, answer⟩) d) :
    answer = home credentials := by
  rcases h with hstep | ⟨⟨fault, hfault, -⟩, -⟩
  · exact hstep.1
  · cases hfault

theorem machine?_of_meets {ns' name' : String} {vm : VirtualMachine}
    (h : c.Meets home ns name (some ⟨.getVirtualMachine ns' name', .ok vm⟩) d) :
    c.machine? ns' name' = some vm := by
  rcases h with ⟨hread, -⟩ | ⟨⟨fault, hfault, -⟩, -⟩
  · unfold Cluster.getMachine at hread
    split at hread
    · rename_i hvm
      cases hread
      exact hvm
    · cases hread
  · cases hfault

/-- A machine that is not found is not there. -/
theorem machine?_eq_none_of_notFound
    (h : c.Meets home ns name (some ⟨.getVirtualMachine ns name, .error .notFound⟩) d) :
    d.machine? ns name = none := by
  rcases h with ⟨hread, rfl⟩ | ⟨⟨fault, hfault, hne⟩, -⟩
  · unfold Cluster.getMachine at hread
    split at hread
    · cases hread
    · rename_i hnone
      exact hnone
  · cases hfault
    exact absurd rfl hne

/-- A machine that was deleted, or was not there to be deleted, is not there. -/
theorem machine?_eq_none_of_deleted {answer : Except StoreError Unit}
    (h : c.Meets home ns name (some ⟨.deleteVirtualMachine ns name, answer⟩) d)
    (hanswer : ∀ fault, answer = .error fault → fault = .notFound) :
    d.machine? ns name = none := by
  rcases h with hstep | ⟨⟨fault, hfault, hne⟩, -⟩
  · rcases Cluster.cases_of_deleted hstep with ⟨hnone, -, rfl⟩ | ⟨vm, -, -, rfl⟩
    · exact hnone
    · rw [Cluster.machine?_without, if_pos rfl]
  · cases answer with
    | ok u => cases hfault
    | error e =>
        cases hfault
        exact absurd (hanswer _ rfl) hne

end Calls

/-! ## Deletion -/

section Deletion

variable {home : Credentials → Outcome String} {ns name : String} {credentials : Credentials}
  {c d : Cluster} {turns : List Turn} {events : List Event} {outcome : Outcome String}

/-- A deletion in a cluster in which others act takes one of its courses. -/
theorem deleteCourse_of_path (hhome : home credentials = .ok ns)
    (hpath : Path (Cluster.Meets home ns name) c turns d)
    (hruns : (deleteMachine name credentials).Runs (ownCalls turns) outcome) :
    DeleteCourse ns name credentials (ownCalls turns) outcome := by
  refine deleteCourse_of_runs hruns (fun answer hmem => ?_) fun vm hmem => ?_
  · obtain ⟨u, w, hmeets⟩ := hpath.step_of_mem (mem_ownCalls_iff.mp hmem)
    exact (home_of_meets hmeets).trans hhome
  · obtain ⟨u, w, hmeets⟩ := hpath.step_of_mem (mem_ownCalls_iff.mp hmem)
    exact Cluster.shownName_of_machine? (machine?_of_meets hmeets)

/-- After a success the machine is not there. -/
theorem DeleteCourse.machine?_eq_none {id : String}
    (h : DeleteCourse ns name credentials (ownCalls turns) (.ok id))
    (hpath : Path (Cluster.Meets home ns name) c turns d) : d.machine? ns name = none := by
  generalize hcalls : ownCalls turns = calls at h
  cases h with
  | absent =>
      have hlast : ownCalls turns = [_] ++ [⟨.getVirtualMachine ns name, .error .notFound⟩] :=
        hcalls
      exact Cluster.machine?_eq_none_of_last hpath hlast fun u w => machine?_eq_none_of_notFound
  | removed vm =>
      have hlast : ownCalls turns = [_, _] ++ [⟨.deleteVirtualMachine ns name, .ok ()⟩] := hcalls
      exact Cluster.machine?_eq_none_of_last hpath hlast fun u w hmeets =>
        machine?_eq_none_of_deleted hmeets fun fault hfault => by cases hfault
  | vanished vm =>
      have hlast : ownCalls turns = [_, _] ++ [⟨.deleteVirtualMachine ns name, .error .notFound⟩] :=
        hcalls
      exact Cluster.machine?_eq_none_of_last hpath hlast fun u w hmeets =>
        machine?_eq_none_of_deleted hmeets fun fault hfault => by cases hfault; rfl

/-- Where the machine is not there, a deletion of which no call is refused finds nothing to do. -/
theorem deleteMachine_of_none (hhome : home credentials = .ok ns)
    (hnone : c.machine? ns name = none) (hpath : Path (Cluster.Meets home ns name) c turns d)
    (hunrefused : ∀ e ∈ ownCalls turns, ¬ e.IsRefused)
    (hruns : (deleteMachine name credentials).Runs (ownCalls turns) outcome) :
    outcome = .ok "" ∧ ∀ e ∈ ownCalls turns, e.call.isMutating = false := by
  have hcreates := hruns.sort_of_mem (deleteMachine_creates_nothing name credentials)
  have hcourse := deleteCourse_of_path hhome hpath hruns
  have hunfound (vm : VirtualMachine) :
      ⟨.getVirtualMachine ns name, .ok vm⟩ ∉ ownCalls turns := by
    intro hmem
    obtain ⟨u, w, hu, hmeets⟩ := hpath.step_of_mem_of_invariant
      (I := fun u => u.machine? ns name = none)
      (fun turn hturn u w hmeets => Cluster.machine?_eq_none_of_meets hmeets fun e he =>
        hcreates e (mem_ownCalls_iff.mpr (he ▸ hturn)))
      hnone (mem_ownCalls_iff.mp hmem)
    rw [machine?_of_meets hmeets] at hu
    cases hu
  generalize ownCalls turns = calls at hcourse hunfound hunrefused
  cases hcourse with
  | absent => exact ⟨rfl, by simp [Call.isMutating]⟩
  | unread fault hfault =>
      have hrefused : Event.IsRefused ⟨.getVirtualMachine ns name, .error fault⟩ :=
        ⟨fault, rfl, hfault⟩
      exact absurd hrefused (hunrefused _ (by simp))
  | removed vm => exact absurd (by simp) (hunfound vm)
  | vanished vm => exact absurd (by simp) (hunfound vm)
  | refused vm => exact absurd (by simp) (hunfound vm)

/-! ## Deletion in an undisturbed cluster -/

/-- A cluster that nobody disturbs is one in which others do nothing. -/
theorem Cluster.path_meets_of_path (h : Path (Cluster.Step (.unused home)) c events d) :
    Path (Cluster.Meets home ns name) c (events.map some) d := by
  induction events generalizing c with
  | nil => exact h
  | cons e rest ih =>
      obtain ⟨u, hstep, hrest⟩ := h
      exact ⟨u, .inl hstep, ih hrest⟩

@[simp] theorem ownCalls_map_some (events : List Event) : ownCalls (events.map some) = events := by
  simp [ownCalls]

/-- A machine that is there is deleted. -/
theorem deleteMachine_of_some {vm : VirtualMachine} (hhome : home credentials = .ok ns)
    (hvm : c.machine? ns name = some vm) (hpath : Path (Cluster.Step (.unused home)) c events d)
    (hruns : (deleteMachine name credentials).Runs events outcome) :
    outcome = .ok (ProviderId.encode name) ∧ (.ok (), d) = c.deleteMachine ns name := by
  have hmeets : Path (Cluster.Meets home ns name) c (events.map some) d :=
    Cluster.path_meets_of_path hpath
  have hcourse : DeleteCourse ns name credentials events outcome := by
    simpa using deleteCourse_of_path hhome hmeets (by simpa using hruns)
  have hread : c.getMachine ns name = .ok vm := by rw [Cluster.getMachine, hvm]
  cases hcourse with
  | absent =>
      obtain ⟨u, ⟨-, rfl⟩, w, ⟨hfault, -⟩, -⟩ := hpath
      cases hfault.trans hread
  | unread fault hne =>
      obtain ⟨u, ⟨-, rfl⟩, w, ⟨hfault, -⟩, -⟩ := hpath
      cases hfault.trans hread
  | removed vm' =>
      obtain ⟨u, ⟨-, rfl⟩, w, ⟨-, rfl⟩, v, hdelete, rfl⟩ := hpath
      exact ⟨rfl, hdelete⟩
  | vanished vm' =>
      obtain ⟨u, ⟨-, rfl⟩, w, ⟨-, rfl⟩, v, hdelete, rfl⟩ := hpath
      rcases Cluster.cases_of_deleted hdelete with ⟨hnone, -⟩ | ⟨_, -, hok, -⟩
      · rw [hvm] at hnone
        cases hnone
      · cases hok
  | refused vm' fault hne =>
      obtain ⟨u, ⟨-, rfl⟩, w, ⟨-, rfl⟩, v, hdelete, rfl⟩ := hpath
      rcases Cluster.cases_of_deleted hdelete with ⟨hnone, -⟩ | ⟨_, -, hok, -⟩
      · rw [hvm] at hnone
        cases hnone
      · cases hok

section Plan

variable {p : Plan} {spec : MachineSpec} {preparation : List Event} {uid version : String}

/-- **What a creation added, a deletion takes away**: the machine of a plan and its secret, and
    nothing else. -/
theorem Cluster.delete_withPlan (settled : p.Settled name spec credentials preparation)
    (hunused : c.IsUnused uid) (hnone : c.machine? p.ns name = none)
    (h : (.ok (), d) = (c.withPlan p uid version).deleteMachine p.ns name) :
    (∀ ns' name', d.machine? ns' name' = c.machine? ns' name') ∧ d.secrets = c.secrets
      ∧ d.volumes = c.volumes := by
  rcases cases_of_deleted h with ⟨-, hfault, -⟩ | ⟨vm, hvm, -, rfl⟩
  · cases hfault
  rw [machine?_withPlan settled, if_pos rfl, Option.some.injEq] at hvm
  subst hvm
  refine ⟨fun ns' name' => ?_, ?_, rfl⟩
  · rw [machine?_without, machine?_withPlan settled]
    split
    · rename_i hsame
      cases hsame
      exact hnone.symm
    · rfl
  · have howned : owns (p.created uid version) (p.secret (p.created uid version)) = true :=
      ((p.belongs_secret settled uid version).isOwnedBy_iff uid).mpr rfl
    have hkept : c.secrets.filter (fun s => !owns (p.created uid version) s) = c.secrets := by
      rw [List.filter_eq_self]
      intro s hs
      have hunowned : owns (p.created uid version) s = false := hunused.2 s hs
      rw [hunowned]
      rfl
    calc ((c.withPlan p uid version).without p.ns name (p.created uid version)).secrets
        = (c.secrets ++ [p.secret (p.created uid version)]).filter
            fun s => !owns (p.created uid version) s := rfl
      _ = c.secrets := by
          rw [List.filter_append, hkept]
          simp [howned]

end Plan

/-- **Deletion removes one machine, and can be repeated.** Around a deletion others may do what they
    like, except create its machine anew, and any call may be refused. The deletion takes one of its
    courses; its calls spare all other machines and what they own; and if it succeeds, the machine
    is not there. A further deletion then has nothing to do, unless one of its calls is refused. In
    a cluster that nobody disturbs, a deletion undoes a creation. -/
theorem deleteMachine_removes_one_machine (hhome : home credentials = .ok ns) :
    (∀ {c d : Cluster} {turns : List Turn} {outcome : Outcome String},
        Path (Cluster.Meets home ns name) c turns d →
        (deleteMachine name credentials).Runs (ownCalls turns) outcome →
          DeleteCourse ns name credentials (ownCalls turns) outcome
          ∧ (∀ e ∈ ownCalls turns, ∀ u w : Cluster, u.Meets home ns name (some e) w →
              u.SparesOthers ns name w)
          ∧ ∀ id, outcome = .ok id → d.machine? ns name = none
            ∧ (∃ events, (deleteMachine name credentials).Runs events (.ok "")
              ∧ Path (Cluster.Step (.unused home)) d events d)
            ∧ ∀ (later : Cluster) (further : List Turn) (outcome' : Outcome String),
              Path (Cluster.Meets home ns name) d further later →
              (∀ e ∈ ownCalls further, ¬ e.IsRefused) →
              (deleteMachine name credentials).Runs (ownCalls further) outcome' →
                outcome' = .ok "" ∧ ∀ e ∈ ownCalls further, ∀ u w : Cluster,
                  u.Meets home ns name (some e) w → w = u)
      ∧ ∀ {c c₁ c₂ : Cluster} {spec : MachineSpec} {creation deletion : List Event} {id : String}
          {outcome : Outcome String},
        (createMachine name spec credentials).Runs creation (.ok id) →
        Path (Cluster.Step (.unused home)) c creation c₁ →
        (deleteMachine name credentials).Runs deletion outcome →
        Path (Cluster.Step (.unused home)) c₁ deletion c₂ →
          outcome = .ok (ProviderId.encode name)
          ∧ (∀ ns' name', c₂.machine? ns' name' = c.machine? ns' name')
          ∧ c₂.secrets = c.secrets ∧ c₂.volumes = c.volumes := by
  constructor
  · intro c d turns outcome hpath hruns
    have hcourse := deleteCourse_of_path hhome hpath hruns
    refine ⟨hcourse, fun e he u w hmeets => ?_, ?_⟩
    · exact Cluster.sparesOthers_of_meets hmeets (hcourse.calls e he)
    · rintro id rfl
      have hnone := hcourse.machine?_eq_none hpath
      refine ⟨hnone, ?_, fun later further outcome' hlater hunrefused hagain => ?_⟩
      · refine ⟨[⟨.client credentials, .ok ns⟩, ⟨.getVirtualMachine ns name, .error .notFound⟩],
          .ask _ (.ask _ (.done _)), d, ⟨hhome.symm, rfl⟩, d, ⟨?_, rfl⟩, rfl⟩
        rw [Cluster.getMachine, hnone]
      · obtain ⟨hok, hreads⟩ := deleteMachine_of_none hhome hnone hlater hunrefused hagain
        exact ⟨hok, fun e he u w hmeets => Cluster.eq_of_meets hmeets (hreads e he)⟩
  · intro c c₁ c₂ spec creation deletion id outcome hcreate hcreation hdelete hdeletion
    rcases cases_of_createMachine hcreate hcreation with ⟨⟨error, herror⟩, -⟩
      | ⟨-, p, preparation, uid, version, settled, hns, hunused, hnone, rfl⟩
    · cases herror
    · cases hns.symm.trans hhome
      have hvm : (c.withPlan p uid version).machine? p.ns name = some (p.created uid version) := by
        rw [Cluster.machine?_withPlan settled, if_pos rfl]
      obtain ⟨hok, hdeleted⟩ := deleteMachine_of_some hhome hvm hdeletion hdelete
      exact ⟨hok, Cluster.delete_withPlan settled hunused hnone hdeleted⟩

/-- A machine is created. If another client then removes it between the two calls of its deletion,
    the deletion succeeds all the same; if nobody does, no secret is left either. -/
theorem deleteMachine_after_creation :
    ∃ (c d e : Cluster) (creation deletion : List Event) (turns : List Turn),
      (createMachine "a" {} {}).Runs creation (.ok (ProviderId.encode "a"))
        ∧ Path (Cluster.Step (.unused fun _ => .ok "default")) {} creation c
        ∧ (deleteMachine "a" {}).Runs deletion (.ok (ProviderId.encode "a"))
        ∧ Path (Cluster.Step (.unused fun _ => .ok "default")) c deletion d ∧ d.secrets = []
        ∧ (deleteMachine "a" {}).Runs (ownCalls turns) (.ok (ProviderId.encode "a")) ∧ none ∈ turns
        ∧ Path (Cluster.Meets (fun _ => .ok "default") "default" "a") c turns e
        ∧ e.machine? "default" "a" = none := by
  let home : Credentials → Outcome String := fun _ => .ok "default"
  let p : Plan := .bare "a" "default" 0 ""
  let vm : VirtualMachine := p.created "uid" "1"
  let c : Cluster := Cluster.withPlan {} p "uid" "1"
  have hunused : Cluster.IsUnused {} "uid" := ⟨fun _ _ _ h => (by cases h), by simp⟩
  obtain ⟨creation, hcreate, hcreation⟩ : ∃ creation,
      (createMachine "a" {} {}).Runs creation (.ok (ProviderId.encode "a"))
        ∧ Path (Cluster.Step (.unused home)) {} creation c :=
    createMachine_bare 0 rfl rfl hunused
  let client : Event := ⟨.client {}, .ok "default"⟩
  let read : Event := ⟨.getVirtualMachine "default" "a", .ok vm⟩
  let delete (answer : Except StoreError Unit) : Event :=
    ⟨.deleteVirtualMachine "default" "a", answer⟩
  have hread : c.Step (.unused home) read c := ⟨rfl, rfl⟩
  have hdelete : (deleteMachine "a" {}).Runs [client, read, delete (.ok ())]
      (.ok (ProviderId.encode "a")) := .ask _ (.ask _ (.ask _ (.done _)))
  have hdeletion : Path (Cluster.Step (.unused home)) c [client, read, delete (.ok ())]
      (c.deleteMachine "default" "a").2 := ⟨c, ⟨rfl, rfl⟩, c, hread, _, rfl, rfl⟩
  let turns : List Turn := [some client, some read, none, some (delete (.error .notFound))]
  have hvanish : (deleteMachine "a" {}).Runs (ownCalls turns) (.ok (ProviderId.encode "a")) :=
    .ask _ (.ask _ (.ask _ (.done _)))
  have hturns : Path (Cluster.Meets home "default" "a") c turns (c.dropMachine "default" "a") :=
    ⟨c, .inl ⟨rfl, rfl⟩, c, .inl hread, c.dropMachine "default" "a", fun _ => rfl,
      c.dropMachine "default" "a", .inl rfl, rfl⟩
  have hhome : home {} = .ok "default" := rfl
  obtain ⟨-, -, hsecrets, -⟩ :=
    (deleteMachine_removes_one_machine hhome).2 hcreate hcreation hdelete hdeletion
  obtain ⟨-, -, hsuccess⟩ := (deleteMachine_removes_one_machine hhome).1 hturns hvanish
  exact ⟨c, _, _, creation, _, turns, hcreate, hcreation, hdelete, hdeletion, hsecrets, hvanish,
    by simp [turns], hturns, (hsuccess _ rfl).1⟩

end Deletion

end MachineDriver
