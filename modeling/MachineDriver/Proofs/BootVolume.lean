import MachineDriver.Proofs.Coherence
import MachineDriver.Server.Service

set_option autoImplicit false

/-!
# Where a machine starts from

The first disk of a new machine is a clone of a volume that is named like the class of the machine,
if there is one, and else an image that is fetched. `Search` lists the courses that the search of
such a volume can take, and `SearchStage` how far a creation gets: it ends before the search or with
it, or it commits a plan with what was found.

The first main statement, `createMachine_follows_search`, says when a volume is searched, and what
follows from the answer. The second one, `createMachine_clones_itself_iff`, is about the volume that
is cloned: it lies beside the new volume, and nothing keeps the two apart but their names. -/

namespace MachineDriver

open Program

/-! ## Searches -/

/-- The namespace and the name under which a call looks for a volume. -/
def Call.volumeKey? : Call → Option (String × String)
  | .getDataVolume ns name => some (ns, name)
  | _ => none

/-- The volumes that are looked for, in order. -/
def searches (events : List Event) : List (String × String) :=
  events.filterMap fun e => e.call.volumeKey?

/-- The calls of a creation before its search, if they succeed: the client, the time and the version
    of the cluster. -/
def beforeSearch (credentials : Credentials) (ns : String) (seconds : Nat) (version : String) :
    List Event :=
  [⟨.client credentials, .ok ns⟩, ⟨.now, seconds⟩, ⟨.serverVersion credentials, .ok version⟩]

theorem searches_append (first rest : List Event) :
    searches (first ++ rest) = searches first ++ searches rest :=
  List.filterMap_append

/-- None of the calls before the search looks for a volume or writes. -/
theorem beforeSearch_reads {credentials : Credentials} {ns version : String} {seconds : Nat} :
    ∀ e ∈ beforeSearch credentials ns seconds version,
      e.call.volumeKey? = none ∧ e.call.isMutating = false := by
  simp [beforeSearch, Call.volumeKey?, Call.isMutating]

/-- A creation comes to its search in the namespace `ns`: the calls before succeeded, and the user
    data takes the keys. -/
def ReachesSearch (spec : MachineSpec) (credentials : Credentials) (events : List Event)
    (ns : String) : Prop :=
  (∃ seconds version rest, events = beforeSearch credentials ns seconds version ++ rest)
    ∧ ∃ userData, Plan.userDataFor spec credentials = .ok userData

/-- The courses that the search of a volume can take: its calls with their answers, and what comes
    of it. -/
inductive Search (ns sourceUrl : String) :
    Option String → List Event → Outcome VolumeSource → Prop where
  | classless {machineClass : Option String} (h : ∀ s, machineClass = some s → s = "") :
      Search ns sourceUrl machineClass [] (.ok ⟨some ⟨sourceUrl⟩, none⟩)
  | found {name : String} (h : name ≠ "") (volume : DataVolume) :
      Search ns sourceUrl (some name) [⟨.getDataVolume ns name, .ok volume⟩]
        (.ok ⟨none, some ⟨volume.metadata.shownName, ns⟩⟩)
  | missing {name : String} (h : name ≠ "") :
      Search ns sourceUrl (some name) [⟨.getDataVolume ns name, .error .notFound⟩]
        (.ok ⟨some ⟨sourceUrl⟩, none⟩)
  | failed {name : String} (h : name ≠ "") (fault : StoreError) (hfault : fault ≠ .notFound) :
      Search ns sourceUrl (some name) [⟨.getDataVolume ns name, .error fault⟩]
        (.error (.object .get "DataVolume" name fault))

variable {name ns : String} {spec : MachineSpec} {credentials : Credentials} {events : List Event}
  {outcome : Outcome String}

/-- What the first disk is made from after a creation has made some calls: from a volume that was
    found, and from nothing else, or from the image, and from nothing else, as no volume was looked
    for or none was found. -/
inductive SourceAfter (ns sourceUrl : String) (events : List Event) : VolumeSource → Prop where
  | clone (name : String) (volume : DataVolume)
      (h : ⟨.getDataVolume ns name, .ok volume⟩ ∈ events) :
      SourceAfter ns sourceUrl events ⟨none, some ⟨volume.metadata.shownName, ns⟩⟩
  | unsought (h : searches events = []) : SourceAfter ns sourceUrl events ⟨some ⟨sourceUrl⟩, none⟩
  | missing (name : String) (h : ⟨.getDataVolume ns name, .error .notFound⟩ ∈ events) :
      SourceAfter ns sourceUrl events ⟨some ⟨sourceUrl⟩, none⟩

theorem SourceAfter.mono {sourceUrl : String} {calls : List Event} {source : VolumeSource}
    (h : SourceAfter ns sourceUrl calls source) (hsub : calls ⊆ events)
    (hsearches : searches events = searches calls) : SourceAfter ns sourceUrl events source := by
  cases h with
  | clone name volume h => exact .clone name volume (hsub h)
  | unsought h => exact .unsought (hsearches.trans h)
  | missing name h => exact .missing name (hsub h)

theorem search_of_runs {sourceUrl : String} {machineClass : Option String} {calls : List Event}
    {source : Outcome VolumeSource}
    (h : (Plan.findBootSource ns sourceUrl machineClass).Runs calls source) :
    Search ns sourceUrl machineClass calls source := by
  unfold Plan.findBootSource at h
  split at h
  · obtain ⟨rfl, rfl⟩ := runs_pure_iff.mp h
    exact .classless nofun
  · obtain ⟨rfl, rfl⟩ := runs_pure_iff.mp h
    exact .classless fun s hs => (Option.some.inj hs).symm
  · rename_i volumeName hname
    obtain ⟨answer, rest, rfl, hanswer⟩ := runs_call_bind_iff.mp h
    split at hanswer
    · obtain ⟨rfl, rfl⟩ := runs_pure_iff.mp hanswer
      exact .found hname _
    · obtain ⟨rfl, rfl⟩ := runs_pure_iff.mp hanswer
      exact .missing hname
    · rename_i fault hfault
      obtain ⟨rfl, rfl⟩ := runs_pure_iff.mp hanswer
      exact .failed hname fault hfault

section Search

variable {sourceUrl : String} {machineClass : Option String} {calls : List Event}
  {source : Outcome VolumeSource}

theorem Search.reads (h : Search ns sourceUrl machineClass calls source) :
    ∀ e ∈ calls, e.call.isMutating = false := by
  cases h <;> simp [Call.isMutating]

/-- A volume is looked for exactly if the class is a name, and under this name. -/
theorem Search.searches_cases (h : Search ns sourceUrl machineClass calls source) :
    ((∀ s, machineClass = some s → s = "") ∧ searches calls = [])
      ∨ ∃ s, machineClass = some s ∧ s ≠ "" ∧ searches calls = [(ns, s)] := by
  cases h with
  | classless h => exact .inl ⟨h, rfl⟩
  | found h => exact .inr ⟨_, rfl, h, rfl⟩
  | missing h => exact .inr ⟨_, rfl, h, rfl⟩
  | failed h => exact .inr ⟨_, rfl, h, rfl⟩

theorem Search.sourceAfter {found : VolumeSource}
    (h : Search ns sourceUrl machineClass calls (.ok found)) :
    SourceAfter ns sourceUrl calls found := by
  cases h with
  | classless h => exact .unsought rfl
  | found h volume => exact .clone _ volume (List.mem_singleton_self _)
  | missing h => exact .missing _ (List.mem_singleton_self _)

/-- A search fails with the fault that it was answered with. -/
theorem Search.eq_of_failed (h : Search ns sourceUrl machineClass calls source)
    {ns' volumeName : String} {fault : StoreError}
    (hfailed : ⟨.getDataVolume ns' volumeName, .error fault⟩ ∈ calls) (hfault : fault ≠ .notFound) :
    source = .error (.object .get "DataVolume" volumeName fault) := by
  cases h with
  | classless => cases hfailed
  | found => cases List.mem_singleton.mp hfailed
  | missing =>
      cases List.mem_singleton.mp hfailed
      exact absurd rfl hfault
  | failed =>
      cases List.mem_singleton.mp hfailed
      rfl

theorem Search.exists_fault {error : DriverError}
    (h : Search ns sourceUrl machineClass calls (.error error)) : ∃ volumeName fault,
      fault ≠ .notFound ∧ ⟨.getDataVolume ns volumeName, .error fault⟩ ∈ calls := by
  cases h with
  | failed _ fault hfault => exact ⟨_, fault, hfault, List.mem_singleton_self _⟩

end Search

/-- The label of the class is not the one that is put above the tags. -/
theorem get?_machineLabels_classLabel (name : String) (tags : TextMap String) :
    (machineLabels name tags).get? classLabel = tags.get? classLabel := by
  rw [machineLabels, TextMap.get?_insert, if_neg (by decide)]

/-! ## How far a creation gets -/

/-- What follows a search: a search that fails ends the creation, and a plan of what was found is
    committed. -/
inductive AfterSearch (name ns : String) :
    Outcome VolumeSource → List Event → Outcome String → Prop where
  | ended (error : DriverError) : AfterSearch name ns (.error error) [] (.error error)
  | committed {plan : Plan} {writes : List Event} {outcome : Outcome String}
      (name_eq : plan.name = name) (ns_eq : plan.ns = ns)
      (commits : plan.commit.Runs writes outcome) :
      AfterSearch name ns (.ok plan.bootSource) writes outcome

/-- How far a creation gets: it ends before the search, or it searches and goes on from there. -/
inductive SearchStage (name : String) (spec : MachineSpec) (credentials : Credentials) :
    List Event → Outcome String → Prop where
  | before {events : List Event} {error : DriverError}
      (early : ∀ ns, ¬ ReachesSearch spec credentials events ns)
      (silent : ∀ e ∈ events, e.call.volumeKey? = none ∧ e.call.isMutating = false) :
      SearchStage name spec credentials events (.error error)
  | searched {ns version userData : String} {seconds : Nat} {search rest : List Event}
      {source : Outcome VolumeSource} {outcome : Outcome String}
      (takesKeys : Plan.userDataFor spec credentials = .ok userData)
      (searched : Search ns spec.sourceUrl (spec.tags.get? classLabel) search source)
      (after : AfterSearch name ns source rest outcome) :
      SearchStage name spec credentials
        (beforeSearch credentials ns seconds version ++ (search ++ rest)) outcome

/-- A preparation that fails ends before its search or with it. -/
theorem searchStage_of_runs_prepare {error : DriverError}
    (h : (Plan.prepare name spec credentials).Runs events (.error error)) :
    SearchStage name spec credentials events (.error error) := by
  unfold Plan.prepare at h
  obtain ⟨client, rest, rfl, hclient⟩ := runs_call_bind_iff.mp h
  cases client with
  | error e =>
      obtain ⟨rfl, -⟩ := runs_pure_iff.mp hclient
      refine .before ?_ (by simp [Call.volumeKey?, Call.isMutating])
      rintro ns ⟨⟨_, _, _, hevents⟩, _⟩
      cases hevents
  | ok ns =>
      obtain ⟨seconds, rest, rfl, hnow⟩ := runs_call_bind_iff.mp hclient
      -- The networks have a layout, so nothing ends the creation here.
      simp only [NetworkLayout.ofSpecs_eq] at hnow
      obtain ⟨version, rest, rfl, hversion⟩ := runs_call_bind_iff.mp hnow
      cases version with
      | error e =>
          obtain ⟨rfl, -⟩ := runs_pure_iff.mp hversion
          refine .before ?_ (by simp [Call.volumeKey?, Call.isMutating])
          rintro ns' ⟨⟨_, _, _, hevents⟩, _⟩
          cases hevents
      | ok version =>
          cases hdata : Plan.userDataFor spec credentials with
          | error e =>
              simp only [hdata] at hversion
              obtain ⟨rfl, -⟩ := runs_pure_iff.mp hversion
              refine .before ?_ (by simp [Call.volumeKey?, Call.isMutating])
              rintro ns' ⟨_, _, htakes⟩
              rw [hdata] at htakes
              cases htakes
          | ok userData =>
              simp only [hdata] at hversion
              obtain ⟨search, last, source, rfl, hsearch, hsource⟩ := runs_bind_iff.mp hversion
              have hsearched := search_of_runs hsearch
              rw [get?_machineLabels_classLabel] at hsearched
              cases source with
              | error e =>
                  obtain ⟨rfl, he⟩ := runs_pure_iff.mp hsource
                  cases he
                  exact .searched hdata hsearched (.ended _)
              | ok source =>
                  obtain ⟨-, he⟩ := runs_pure_iff.mp hsource
                  cases he

theorem searchStage_of_runs (h : (createMachine name spec credentials).Runs events outcome) :
    SearchStage name spec credentials events outcome := by
  rcases cases_of_runs_createMachine h with ⟨error, rfl, hprepare⟩
    | ⟨plan, preparation, writes, rfl, settled, hcommit⟩
  · exact searchStage_of_runs_prepare hprepare
  · obtain ⟨seconds, version, search, rfl, -, -, hsearch⟩ := settled.calls
    have hsearched := search_of_runs hsearch
    rw [get?_machineLabels_classLabel] at hsearched
    exact .searched settled.userData_eq hsearched (.committed settled.name_eq rfl hcommit)

/-- A creation whose first calls succeeded comes to its search in one namespace. -/
theorem reachesSearch_iff {version userData : String} {seconds : Nat} {rest : List Event}
    (takesKeys : Plan.userDataFor spec credentials = .ok userData) {ns' : String} :
    ReachesSearch spec credentials (beforeSearch credentials ns seconds version ++ rest) ns'
      ↔ ns' = ns := by
  constructor
  · rintro ⟨⟨_, _, _, hevents⟩, _⟩
    cases hevents
    rfl
  · rintro rfl
    exact ⟨⟨seconds, version, rest, rfl⟩, userData, takesKeys⟩

/-! ## What follows a search -/

/-- A commitment looks for no volume, and the only machine that it sends is that of its plan. -/
theorem Plan.commit_sends (p : Plan) : p.commit.MakesOnly fun c =>
    c.volumeKey? = none ∧ ∀ vm, c = .createVirtualMachine vm → vm = p.virtualMachine := by
  unfold Plan.commit
  have hsent : ∀ vm, Call.createVirtualMachine p.virtualMachine = .createVirtualMachine vm →
      vm = p.virtualMachine := fun vm h => (Call.createVirtualMachine.inj h).symm
  refine .bind (.call ⟨rfl, hsent⟩) fun machine => ?_
  split
  · exact .pure _
  · refine .bind (.call ⟨rfl, fun vm h => by injection h⟩) fun secret => ?_
    split <;> exact .pure _

/-- A commitment begins by sending the machine of its plan. -/
theorem Plan.exists_sent {p : Plan} {writes : List Event} (h : p.commit.Runs writes outcome) :
    ∃ answer, ⟨.createVirtualMachine p.virtualMachine, answer⟩ ∈ writes := by
  rcases cases_of_runs_commit h with ⟨_, rfl, _⟩ | ⟨_, _, rfl, _⟩ | ⟨_, _, rfl, _⟩
    <;> exact ⟨_, List.mem_cons_self⟩

section AfterSearch

variable {source : Outcome VolumeSource} {search rest : List Event} {version : String}
  {seconds : Nat}

theorem AfterSearch.seeks_nothing (h : AfterSearch name ns source rest outcome) :
    ∀ e ∈ rest, e.call.volumeKey? = none := by
  cases h with
  | ended => simp
  | committed _ _ commits => exact fun e he => (commits.sort_of_mem (Plan.commit_sends _) e he).1

/-- The volumes that were looked for are those of the search. -/
theorem AfterSearch.searches_eq (h : AfterSearch name ns source rest outcome) :
    searches (beforeSearch credentials ns seconds version ++ (search ++ rest))
      = searches search := by
  have hbefore : searches (beforeSearch credentials ns seconds version) = [] := rfl
  have hrest : searches rest = [] := List.filterMap_eq_nil_iff.mpr h.seeks_nothing
  rw [searches_append, searches_append, hbefore, hrest, List.nil_append, List.append_nil]

/-- A call that looks for a volume belongs to the search. -/
theorem AfterSearch.mem_search (h : AfterSearch name ns source rest outcome) {e : Event}
    (he : e ∈ beforeSearch credentials ns seconds version ++ (search ++ rest))
    (hkey : e.call.volumeKey? ≠ none) : e ∈ search := by
  rcases List.mem_append.mp he with hbefore | he
  · exact absurd (beforeSearch_reads e hbefore).1 hkey
  · rcases List.mem_append.mp he with he | hrest
    · exact he
    · exact absurd (h.seeks_nothing e hrest) hkey

/-- A machine that was sent is that of a plan with what was found. -/
theorem AfterSearch.exists_plan (h : AfterSearch name ns source rest outcome)
    (hreads : ∀ e ∈ search, e.call.isMutating = false) {vm : VirtualMachine}
    {answer : Except StoreError VirtualMachine}
    (hsent : ⟨.createVirtualMachine vm, answer⟩
      ∈ beforeSearch credentials ns seconds version ++ (search ++ rest)) :
    ∃ plan : Plan, plan.name = name ∧ plan.ns = ns ∧ source = .ok plan.bootSource
      ∧ vm = plan.virtualMachine := by
  have hrest : ⟨.createVirtualMachine vm, answer⟩ ∈ rest := by
    rcases List.mem_append.mp hsent with hbefore | hsent
    · cases (beforeSearch_reads _ hbefore).2
    · rcases List.mem_append.mp hsent with hsearch | hrest
      · cases hreads _ hsearch
      · exact hrest
  cases h with
  | ended => cases hrest
  | @committed plan _ _ name_eq ns_eq commits =>
      exact ⟨plan, name_eq, ns_eq, rfl,
        (commits.sort_of_mem (Plan.commit_sends _) _ hrest).2 vm rfl⟩

end AfterSearch

namespace SearchStage

theorem length_searches (h : SearchStage name spec credentials events outcome) :
    (searches events).length ≤ 1 := by
  cases h with
  | before early silent =>
      rw [searches, List.filterMap_eq_nil_iff.mpr fun e he => (silent e he).1]
      exact Nat.zero_le 1
  | searched takesKeys searched after =>
      rw [after.searches_eq]
      rcases searched.searches_cases with ⟨_, hcalls⟩ | ⟨_, _, _, hcalls⟩ <;> simp [hcalls]

theorem mem_searches_iff (h : SearchStage name spec credentials events outcome)
    {volumeName : String} : (ns, volumeName) ∈ searches events
      ↔ ReachesSearch spec credentials events ns
        ∧ spec.tags.get? classLabel = some volumeName ∧ volumeName ≠ "" := by
  cases h with
  | before early silent =>
      rw [searches, List.filterMap_eq_nil_iff.mpr fun e he => (silent e he).1]
      exact ⟨nofun, fun ⟨hreaches, _⟩ => absurd hreaches (early ns)⟩
  | searched takesKeys searched after =>
      rw [after.searches_eq, reachesSearch_iff takesKeys]
      rcases searched.searches_cases with ⟨hclass, hcalls⟩ | ⟨s, hclass, hname, hcalls⟩
      · rw [hcalls]
        exact ⟨nofun, fun ⟨_, hnamed, hne⟩ => absurd (hclass _ hnamed) hne⟩
      · rw [hcalls, hclass, List.mem_singleton, Prod.mk.injEq, Option.some.injEq]
        constructor
        · rintro ⟨rfl, rfl⟩
          exact ⟨rfl, rfl, hname⟩
        · rintro ⟨rfl, rfl, _⟩
          exact ⟨rfl, rfl⟩

/-- A machine that is sent is that of a plan, whose first disk is made from what was found. -/
theorem exists_plan (h : SearchStage name spec credentials events outcome) {vm : VirtualMachine}
    {answer : Except StoreError VirtualMachine}
    (hsent : ⟨.createVirtualMachine vm, answer⟩ ∈ events) :
    ∃ plan : Plan, plan.name = name ∧ vm = plan.virtualMachine
      ∧ ReachesSearch spec credentials events plan.ns
      ∧ SourceAfter plan.ns spec.sourceUrl events plan.bootSource := by
  cases h with
  | before early silent => cases (silent _ hsent).2
  | searched takesKeys searched after =>
      obtain ⟨plan, hname, rfl, rfl, hvm⟩ := after.exists_plan searched.reads hsent
      exact ⟨plan, hname, hvm, (reachesSearch_iff takesKeys).mpr rfl,
        searched.sourceAfter.mono
          (fun e he => List.mem_append_right _ (List.mem_append_left _ he)) after.searches_eq⟩

/-- A search that fails, and not because there is no volume, ends the creation. -/
theorem ended_of_failed (h : SearchStage name spec credentials events outcome)
    {volumeName : String} {fault : StoreError}
    (hfailed : ⟨.getDataVolume ns volumeName, .error fault⟩ ∈ events) (hfault : fault ≠ .notFound) :
    outcome = .error (.object .get "DataVolume" volumeName fault)
      ∧ ∀ e ∈ events, e.call.isMutating = false := by
  cases h with
  | before early silent => cases (silent _ hfailed).1
  | searched takesKeys searched after =>
      obtain rfl := searched.eq_of_failed (after.mem_search hfailed nofun) hfault
      cases after with
      | ended =>
          refine ⟨rfl, fun e he => ?_⟩
          rcases List.mem_append.mp he with hbefore | he
          · exact (beforeSearch_reads e hbefore).2
          · rw [List.append_nil] at he
            exact searched.reads e he

/-- Once a creation comes to its search, only a search that fails keeps a machine from being
    sent. -/
theorem sent_or_failed (h : SearchStage name spec credentials events outcome)
    (hreaches : ReachesSearch spec credentials events ns) :
    (∃ vm answer, ⟨.createVirtualMachine vm, answer⟩ ∈ events)
      ∨ ∃ volumeName fault, fault ≠ .notFound
        ∧ ⟨.getDataVolume ns volumeName, .error fault⟩ ∈ events := by
  cases h with
  | before early silent => exact absurd hreaches (early ns)
  | searched takesKeys searched after =>
      obtain rfl := (reachesSearch_iff takesKeys).mp hreaches
      cases after with
      | ended error =>
          obtain ⟨volumeName, fault, hfault, hfailed⟩ := searched.exists_fault
          exact .inr ⟨volumeName, fault, hfault,
            List.mem_append_right _ (List.mem_append_left _ hfailed)⟩
      | @committed plan _ _ _ _ commits =>
          obtain ⟨answer, hsent⟩ := Plan.exists_sent commits
          exact .inl ⟨_, answer, List.mem_append_right _ (List.mem_append_right _ hsent)⟩

end SearchStage

/-- **The source of the first disk follows the search** for a volume, whatever the calls of a
    creation are answered. A volume is looked for at most once, and exactly when the steps before
    succeeded and the tags name a class, under this name in the namespace of the client. A machine
    that is sent has one template, made from what was found. A search that fails in any other way
    than by finding nothing ends the creation, which then has written nothing; nothing else keeps a
    machine from being sent once the creation comes to its search. -/
theorem createMachine_follows_search
    (h : (createMachine name spec credentials).Runs events outcome) :
    (searches events).length ≤ 1
      ∧ (∀ ns volumeName, (ns, volumeName) ∈ searches events
          ↔ ReachesSearch spec credentials events ns
            ∧ spec.tags.get? classLabel = some volumeName ∧ volumeName ≠ "")
      ∧ (∀ vm answer, ⟨.createVirtualMachine vm, answer⟩ ∈ events → ∃ ns template source,
          ReachesSearch spec credentials events ns ∧ vm.spec.dataVolumeTemplates = [template]
            ∧ template.spec.source = some source ∧ SourceAfter ns spec.sourceUrl events source)
      ∧ (∀ ns volumeName fault, ⟨.getDataVolume ns volumeName, .error fault⟩ ∈ events →
          fault ≠ .notFound →
          outcome = .error (.object .get "DataVolume" volumeName fault)
            ∧ ∀ e ∈ events, e.call.isMutating = false)
      ∧ ∀ ns, ReachesSearch spec credentials events ns →
          (∃ vm answer, ⟨.createVirtualMachine vm, answer⟩ ∈ events)
            ∨ ∃ volumeName fault, fault ≠ .notFound
              ∧ ⟨.getDataVolume ns volumeName, .error fault⟩ ∈ events := by
  have hstage := searchStage_of_runs h
  refine ⟨hstage.length_searches, fun _ _ => hstage.mem_searches_iff, fun vm answer hsent => ?_,
    fun _ _ _ hfailed hfault => hstage.ended_of_failed hfailed hfault,
    fun _ hreaches => hstage.sent_or_failed hreaches⟩
  obtain ⟨plan, _, rfl, hreaches, hsource⟩ := hstage.exists_plan hsent
  exact ⟨plan.ns, plan.bootVolume, plan.bootSource, hreaches, rfl, rfl, hsource⟩

/-- A specification that names nothing but a class. -/
def MachineSpec.ofClass (machineClass : String) : MachineSpec :=
  { tags := TextMap.empty.insert classLabel machineClass }

/-- A plan of a machine of the class `small` that starts from a volume of this name. -/
def Plan.small : Plan :=
  { Plan.bare "a" "vms" 0 "" with
    spec := .ofClass "small"
    bootSource := .ofClaim "small" "vms" }

/-- The calls of a creation for which a volume of its class is found, and which the cluster then
    refuses. -/
def smallEvents : List Event :=
  beforeSearch {} "vms" 0 "v1.28.2"
    ++ [⟨.getDataVolume "vms" "small",
          .ok ⟨{ name := some "small", ns? := some "vms" }, ⟨none, none⟩⟩⟩,
      ⟨.createVirtualMachine Plan.small.virtualMachine, .error (.conflict "taken")⟩]

theorem runs_smallEvents : (createMachine "a" (.ofClass "small") {}).Runs smallEvents
    (.error (.object .create "VirtualMachine" "a" (.conflict "taken"))) :=
  .ask _ (.ask _ (.ask _ (.ask _ (.ask _ (.done _)))))

theorem sent_mem_smallEvents :
    ⟨.createVirtualMachine Plan.small.virtualMachine, .error (.conflict "taken")⟩ ∈ smallEvents :=
  List.mem_append_right _ (List.mem_cons_of_mem _ List.mem_cons_self)

/-- A machine of a class for which a volume is found. -/
theorem createMachine_follows_search_of_class :
    (createMachine "a" (.ofClass "small") {}).Runs smallEvents
        (.error (.object .create "VirtualMachine" "a" (.conflict "taken")))
      ∧ searches smallEvents = [("vms", "small")]
      ∧ ∃ template source, Plan.small.virtualMachine.spec.dataVolumeTemplates = [template]
        ∧ template.spec.source = some source ∧ SourceAfter "vms" "" smallEvents source := by
  obtain ⟨-, -, hsource, -, -⟩ := createMachine_follows_search runs_smallEvents
  obtain ⟨ns, template, source, hreaches, htemplate, heq, hafter⟩ :=
    hsource _ _ sent_mem_smallEvents
  obtain rfl : ns = "vms" := (reachesSearch_iff rfl).mp hreaches
  exact ⟨runs_smallEvents, rfl, template, source, htemplate, heq, hafter⟩

/-! ## Clones of a volume onto itself -/

/-- The claim that a new volume is cloned from. -/
def DataVolumeTemplate.clone? (t : DataVolumeTemplate) : Option ClaimSource :=
  t.spec.source.bind VolumeSource.pvc

/-- The name and the namespace of a claim are those of a new volume. -/
def ClaimSource.Is (claim : ClaimSource) (t : DataVolumeTemplate) : Prop :=
  t.metadata.name = some claim.name ∧ t.metadata.ns? = some claim.ns

instance (claim : ClaimSource) (t : DataVolumeTemplate) : Decidable (claim.Is t) :=
  inferInstanceAs (Decidable (_ ∧ _))

/-- **The source of a clone is the clone itself exactly if it has the name of the machine.** A
    volume that is cloned was looked for by the class of the machine, in the namespace of the
    client, in which the new volume will lie; so only its name can differ from that of the new
    volume, and the new volume has the name of the machine. -/
theorem createMachine_clones_itself_iff
    (h : (createMachine name spec credentials).Runs events outcome) {vm : VirtualMachine}
    {answer : Except StoreError VirtualMachine}
    (hsent : ⟨.createVirtualMachine vm, answer⟩ ∈ events) {template : DataVolumeTemplate}
    (htemplate : template ∈ vm.spec.dataVolumeTemplates) {claim : ClaimSource}
    (hclone : template.clone? = some claim) :
    ∃ ns volumeName volume, ReachesSearch spec credentials events ns
      ∧ searches events = [(ns, volumeName)]
      ∧ spec.tags.get? classLabel = some volumeName
      ∧ ⟨.getDataVolume ns volumeName, .ok volume⟩ ∈ events
      ∧ template.metadata.ns? = some ns ∧ claim.ns = ns
      ∧ (claim.Is template ↔ volume.metadata.shownName = name)
      ∧ (volume.metadata.shownName = volumeName → (claim.Is template ↔ volumeName = name)) := by
  have hstage := searchStage_of_runs h
  obtain ⟨plan, rfl, rfl, hreaches, hsource⟩ := hstage.exists_plan hsent
  obtain rfl : template = plan.bootVolume := List.mem_singleton.mp htemplate
  have hpvc : plan.bootSource.pvc = some claim := hclone
  generalize plan.bootSource = source at hsource hpvc
  cases hsource with
  | unsought => cases hpvc
  | missing => cases hpvc
  | clone volumeName volume hfound =>
      cases hpvc
      have hmem : (plan.ns, volumeName) ∈ searches events :=
        List.mem_filterMap.mpr ⟨_, hfound, rfl⟩
      have hiff : ClaimSource.Is ⟨volume.metadata.shownName, plan.ns⟩ plan.bootVolume
          ↔ volume.metadata.shownName = plan.name :=
        ⟨fun hsame => (Option.some.inj hsame.1).symm, fun hname => ⟨by rw [hname]; rfl, rfl⟩⟩
      refine ⟨plan.ns, volumeName, volume, hreaches, ?_, (hstage.mem_searches_iff.mp hmem).2.1,
        hfound, rfl, rfl, hiff, fun hnamed => by rw [hiff, hnamed]⟩
      obtain ⟨key, hkey⟩ := List.length_eq_one_iff.mp
        (Nat.le_antisymm hstage.length_searches (List.length_pos_of_mem hmem))
      rw [hkey] at hmem ⊢
      rw [List.mem_singleton.mp hmem]

/-- A machine that has not the name of its class is cloned from another volume. -/
theorem createMachine_clones_other_volume :
    (createMachine "a" (.ofClass "small") {}).Runs smallEvents
        (.error (.object .create "VirtualMachine" "a" (.conflict "taken")))
      ∧ ∃ template ∈ Plan.small.virtualMachine.spec.dataVolumeTemplates, ∃ claim,
        template.clone? = some claim ∧ ¬ claim.Is template := by
  have htemplate : Plan.small.bootVolume ∈ Plan.small.virtualMachine.spec.dataVolumeTemplates :=
    List.mem_singleton_self _
  have hclone : Plan.small.bootVolume.clone? = some ⟨"small", "vms"⟩ := rfl
  obtain ⟨ns, volumeName, volume, -, -, -, hfound, -, -, hiff, -⟩ :=
    createMachine_clones_itself_iff runs_smallEvents sent_mem_smallEvents htemplate hclone
  refine ⟨runs_smallEvents, _, htemplate, _, hclone, ?_⟩
  rw [hiff]
  simp only [smallEvents, beforeSearch, List.cons_append, List.nil_append, List.mem_cons,
    List.not_mem_nil, or_false] at hfound
  rcases hfound with h | h | h | h | h <;> cases h
  decide

/-- A call asks for a machine with a volume that is cloned from itself. -/
def Call.clonesItself : Call → Bool
  | .createVirtualMachine vm => vm.spec.dataVolumeTemplates.any fun t =>
      match t.clone? with
      | some claim => claim.Is t
      | none => false
  | _ => false

/-- A machine that is named like its class is asked for with a volume that is to be cloned from
    itself, and the server says that it was created. -/
theorem server_clones_volume_onto_itself :
    ∃ (c : Config) (r : Request) (w : World),
      ((Service.respond c r).run World.answer w).1.map Response.status = some .created
        ∧ ∃ vm, .createVirtualMachine vm ∈ ((Service.respond c r).run World.answer w).2.calls
          ∧ ∃ t ∈ vm.spec.dataVolumeTemplates, ∃ claim, t.clone? = some claim ∧ claim.Is t := by
  let c : Config := ⟨Config.defaultAddress, none, none⟩
  -- In short pieces, each of which is encoded by itself.
  let document : List String :=
    ["\x7b\"machineName\":\"golden\",", "\"providerSpec\":\x7b", "\"sourceURL\":\"u\",",
      "\"storageClassName\":\"c\",", "\"pvcSize\":\"1\",",
      "\"resources\":\x7b\"requests\":\x7b", "\"memory\":\"1\"\x7d\x7d,",
      "\"tags\":\x7b", "\"mcm.gardener.cloud/", "machineclass\":\"golden\"\x7d\x7d,",
      "\"secret\":\x7b\"data\":\x7b", "\"kubeconfig\":\"eA==\",",
      "\"userData\":\"eA==\"\x7d\x7d\x7d"]
  let r : Request :=
    { method := "POST"
      target := "/machines"
      headers := [("Content-Type", Text.Utf8.encode "application/json")]
      body := document.flatMap Text.Utf8.encode }
  let golden : DataVolume := ⟨{ name := some "golden", ns? := some "default" }, ⟨none, none⟩⟩
  let w : World := { cluster := Cluster.ofObjects [] [golden] }
  obtain ⟨hstatus, hcalls⟩ :
      ((Service.respond c r).run World.answer w).1.map Response.status = some .created
      ∧ ((Service.respond c r).run World.answer w).2.calls.any Call.clonesItself = true := by
    decide +kernel
  obtain ⟨call, hmem, hcall⟩ := List.any_eq_true.mp hcalls
  refine ⟨c, r, w, hstatus, ?_⟩
  cases call with
  | createVirtualMachine vm =>
      obtain ⟨t, ht, hclones⟩ := List.any_eq_true.mp hcall
      split at hclones
      · rename_i claim hclone
        exact ⟨vm, hmem, t, ht, claim, hclone, of_decide_eq_true hclones⟩
      · cases hclones
  | _ => cases hcall

end MachineDriver
