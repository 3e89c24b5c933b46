import MachineDriver.Machine.NetworkLayout
import Mathlib.Data.List.Forall2
import Mathlib.Data.List.Nodup

set_option autoImplicit false

/-!
# What the network cards of a machine are attached to

A layout lists the network cards of a machine and, in a second list, the networks that they are
attached to. The shared network is added in front unless another network is the default, so the
place of a network in a specification and its place in the layout may differ by one.

`NetworkLayout.WellFormed` says that both lists agree and hold the networks of a specification,
each once. The main statement, `layout_attaches_networks`, says that this is so for every list of
networks, and that a machine of a valid specification has one default route. -/

namespace MachineDriver

/-- A card and a network of one name. A card behind the address of the machine's launcher goes with
the shared network and a bridged one with an attached network; neither is also the other. -/
structure Attached (card : Interface) (network : Network) : Prop where
  name_eq : card.name = network.name
  kinds : (card.masquerade.isSome ∧ card.bridge = none ∧ network.pod.isSome ∧ network.multus = none)
    ∨ (card.bridge.isSome ∧ card.masquerade = none ∧ network.multus.isSome ∧ network.pod = none)

/-- Whether a machine sends through a network what no other network is meant for. -/
def Network.isDefaultRoute (n : Network) : Bool :=
  n.pod.isSome || n.multus.any MultusNetwork.default

@[simp] theorem Network.isDefaultRoute_ofPod (name : String) :
    (ofPod name).isDefaultRoute = true := rfl

@[simp] theorem Network.isDefaultRoute_ofMultus (name networkName : String) (default : Bool) :
    (ofMultus name networkName default).isDefaultRoute = default := rfl

namespace NetworkLayout

/-- The cards of a layout fit its networks, which are the networks of a list and perhaps the shared
one. -/
structure WellFormed (l : NetworkLayout) (specs : List NetworkSpec) : Prop where
  /-- The lists are equally long, and entries at the same place belong together. -/
  attached : List.Forall₂ Attached l.interfaces l.networks
  distinct : (l.networks.map Network.name).Nodup
  multus : l.networks.filterMap Network.multus = specs.map fun s => ⟨s.name, s.default⟩
  pod_iff : (∃ n ∈ l.networks, n.pod.isSome) ↔ ∀ s ∈ specs, s.default = false
  /-- The shared network comes first and only once. -/
  pod_first : ∀ before n after, l.networks = before ++ n :: after → n.pod.isSome →
    before = [] ∧ ∀ m ∈ after, m.pod = none

/-! ## Numbered names -/

theorem toList_numbered (stem : String) (n : Nat) :
    (numbered stem n).toList = stem.toList ++ Text.decimal n := by
  simp [numbered]

theorem numbered_injective (stem : String) : Function.Injective (numbered stem) := by
  intro m n h
  have hlist := congrArg String.toList h
  rw [toList_numbered, toList_numbered, List.append_cancel_left_eq] at hlist
  exact Text.decimal_inj hlist

theorem podName_ne_numbered (n : Nat) : podName ≠ numbered "net" n := by
  intro h
  have hlist := congrArg String.toList h
  rw [toList_numbered] at hlist
  have hhead : 'd' = 'n' := congrArg (fun cs : List Char => cs.headD ' ') hlist
  exact absurd hhead (by decide)

/-! ## The networks of a list -/

theorem forall₂_attached_bridges (place : Nat) (specs : List NetworkSpec) :
    List.Forall₂ Attached (bridges place specs) (attachments place specs) := by
  induction specs generalizing place with
  | nil => exact .nil
  | cons s specs ih => exact .cons ⟨rfl, .inr ⟨rfl, rfl, rfl, rfl⟩⟩ (ih (place + 1))

theorem map_name_attachments (place : Nat) (specs : List NetworkSpec) :
    (attachments place specs).map Network.name
      = (List.range' place specs.length).map (numbered "net") := by
  induction specs generalizing place with
  | nil => rfl
  | cons s specs ih =>
    rw [attachments, List.map_cons, ih, List.length_cons, List.range'_succ, List.map_cons]
    rfl

theorem filterMap_multus_attachments (place : Nat) (specs : List NetworkSpec) :
    (attachments place specs).filterMap Network.multus
      = specs.map fun s => ⟨s.name, s.default⟩ := by
  induction specs generalizing place with
  | nil => rfl
  | cons s specs ih =>
    rw [attachments, List.map_cons, ← ih (place + 1)]
    rfl

theorem pod_of_mem_attachments {place : Nat} {specs : List NetworkSpec} {n : Network}
    (h : n ∈ attachments place specs) : n.pod = none := by
  induction specs generalizing place with
  | nil => cases h
  | cons s specs ih =>
    rcases List.mem_cons.mp h with rfl | h
    · rfl
    · exact ih h

/-- As many attached networks are default routes as the list says. -/
theorem length_filter_isDefaultRoute_attachments (place : Nat) (specs : List NetworkSpec) :
    ((attachments place specs).filter Network.isDefaultRoute).length
      = (specs.filter NetworkSpec.default).length := by
  induction specs generalizing place with
  | nil => rfl
  | cons s specs ih =>
    rw [attachments, List.filter_cons, List.filter_cons, Network.isDefaultRoute_ofMultus]
    by_cases h : s.default = true
    · rw [if_pos h, if_pos h, List.length_cons, List.length_cons, ih]
    · rw [if_neg h, if_neg h, ih]

/-! ## The shared network -/

theorem hasPod_iff (specs : List NetworkSpec) :
    hasPod specs = true ↔ ∀ s ∈ specs, s.default = false := by
  simp [hasPod]

theorem networksOf_of_hasPod {specs : List NetworkSpec} (h : hasPod specs = true) :
    networksOf specs = .ofPod podName :: attachments 0 specs := by
  rw [networksOf, if_pos h, List.singleton_append]

theorem networksOf_of_not_hasPod {specs : List NetworkSpec} (h : ¬ hasPod specs = true) :
    networksOf specs = attachments 0 specs := by
  rw [networksOf, if_neg h, List.nil_append]

theorem forall₂_attached_interfacesOf (specs : List NetworkSpec) :
    List.Forall₂ Attached (interfacesOf specs) (networksOf specs) := by
  rw [interfacesOf, networksOf]
  by_cases h : hasPod specs = true
  · rw [if_pos h, if_pos h]
    exact .cons ⟨rfl, .inl ⟨rfl, rfl, rfl, rfl⟩⟩ (forall₂_attached_bridges 0 specs)
  · rw [if_neg h, if_neg h]
    exact forall₂_attached_bridges 0 specs

/-- Every card is attached to the network of its name, in the same order. -/
theorem map_name_interfacesOf (specs : List NetworkSpec) :
    (interfacesOf specs).map Interface.name = (networksOf specs).map Network.name := by
  rw [← List.forall₂_eq_eq_eq, List.forall₂_map_left_iff, List.forall₂_map_right_iff]
  exact (forall₂_attached_interfacesOf specs).imp fun _ _ h => h.name_eq

theorem nodup_names_networksOf (specs : List NetworkSpec) :
    ((networksOf specs).map Network.name).Nodup := by
  have hnumbered : ((attachments 0 specs).map Network.name).Nodup := by
    rw [map_name_attachments]
    exact List.Nodup.map (numbered_injective "net") List.nodup_range'
  by_cases h : hasPod specs = true
  · have hnew : podName ∉ (attachments 0 specs).map Network.name := by
      rw [map_name_attachments, List.mem_map]
      rintro ⟨n, _, hn⟩
      exact podName_ne_numbered n hn.symm
    rw [networksOf_of_hasPod h, List.map_cons]
    exact List.nodup_cons.mpr ⟨hnew, hnumbered⟩
  · rwa [networksOf_of_not_hasPod h]

theorem filterMap_multus_networksOf (specs : List NetworkSpec) :
    (networksOf specs).filterMap Network.multus = specs.map fun s => ⟨s.name, s.default⟩ := by
  rw [← filterMap_multus_attachments 0 specs]
  by_cases h : hasPod specs = true
  · rw [networksOf_of_hasPod h]
    rfl
  · rw [networksOf_of_not_hasPod h]

theorem exists_pod_iff (specs : List NetworkSpec) :
    (∃ n ∈ networksOf specs, n.pod.isSome) ↔ ∀ s ∈ specs, s.default = false := by
  rw [← hasPod_iff]
  constructor
  · rintro ⟨n, hn, hpod⟩
    by_contra h
    rw [networksOf_of_not_hasPod h] at hn
    rw [pod_of_mem_attachments hn] at hpod
    cases hpod
  · intro h
    rw [networksOf_of_hasPod h]
    exact ⟨.ofPod podName, List.mem_cons_self, rfl⟩

theorem pod_first_of_networksOf {specs : List NetworkSpec} {before after : List Network}
    {n : Network} (h : networksOf specs = before ++ n :: after) (hpod : n.pod.isSome) :
    before = [] ∧ ∀ m ∈ after, m.pod = none := by
  have hattached : n ∉ attachments 0 specs := by
    intro hn
    rw [pod_of_mem_attachments hn] at hpod
    cases hpod
  by_cases hshared : hasPod specs = true
  · rw [networksOf_of_hasPod hshared] at h
    cases before with
    | nil =>
      rw [List.nil_append, List.cons.injEq] at h
      exact ⟨rfl, fun m hm => pod_of_mem_attachments (h.2 ▸ hm)⟩
    | cons m before =>
      rw [List.cons_append, List.cons.injEq] at h
      exact absurd (h.2 ▸ by simp) hattached
  · rw [networksOf_of_not_hasPod hshared] at h
    exact absurd (h ▸ by simp) hattached

/-! ## Layouts -/

theorem entries_cards_perm (count : ℕ) : (cards count).entries.Perm
    ((List.range count).map fun i => (numbered "eth" i, cardSettings)) := by
  refine TextMap.entries_ofList_perm ?_
  rw [List.map_map]
  exact List.nodup_range.map (numbered_injective "eth")

/-- The settings of any number of cards can be written. -/
theorem render_settings (count : ℕ) : render (settings count) = .ok (settings count).toText := by
  have hcards : ∀ e ∈ (cards count).entries, e.2.isWritable false = true := by
    intro e he
    obtain ⟨i, -, rfl⟩ := List.mem_map.mp ((entries_cards_perm count).mem_iff.mp he)
    exact (by decide : Yaml.isWritable false cardSettings = true)
  have hwritable : (settings count).isWritable false = true :=
    @Yaml.isWritable_mapping_texts [("version", .integer 2), ("ethernets", _)]
      (List.forall_mem_cons.mpr ⟨by decide,
        List.forall_mem_singleton.mpr (Yaml.isWritable_mapping_texts hcards)⟩)
  rw [render, Yaml.write_of_isWritable hwritable]

/-- **Every list of networks has a layout.** -/
theorem ofSpecs_eq (specs : List NetworkSpec) : ofSpecs specs = .ok
    { interfaces := interfacesOf specs
      networks := networksOf specs
      networkData :=
        if specs.isEmpty then none
        else some (settings (interfacesOf specs).length).toText } := by
  unfold ofSpecs
  rw [render_settings]
  split <;> rfl

theorem wellFormed (specs : List NetworkSpec) (data : Option String) :
    WellFormed ⟨interfacesOf specs, networksOf specs, data⟩ specs where
  attached := forall₂_attached_interfacesOf specs
  distinct := nodup_names_networksOf specs
  multus := filterMap_multus_networksOf specs
  pod_iff := exists_pod_iff specs
  pod_first := fun _ _ _ => pod_first_of_networksOf

/-- Of a list with one default at most, one network of the layout is the default route. -/
theorem length_filter_isDefaultRoute_networksOf {specs : List NetworkSpec}
    (h : (specs.filter NetworkSpec.default).length ≤ 1) :
    ((networksOf specs).filter Network.isDefaultRoute).length = 1 := by
  have hattached := length_filter_isDefaultRoute_attachments 0 specs
  by_cases hshared : hasPod specs = true
  · have hnone : specs.filter NetworkSpec.default = [] := by
      rw [List.filter_eq_nil_iff]
      intro s hs
      simp [(hasPod_iff specs).mp hshared s hs]
    rw [hnone] at hattached
    rw [networksOf_of_hasPod hshared,
      List.filter_cons_of_pos (Network.isDefaultRoute_ofPod podName), List.length_cons, hattached]
    rfl
  · have hsome : 0 < (specs.filter NetworkSpec.default).length := by
      rw [List.length_pos_iff, ne_eq, List.filter_eq_nil_iff]
      intro hnone
      refine hshared ((hasPod_iff specs).mpr fun s hs => ?_)
      simpa using hnone s hs
    rw [networksOf_of_not_hasPod hshared, hattached]
    omega

end NetworkLayout

theorem MachineSpec.length_defaults_of_validate {spec : MachineSpec} (h : spec.validate = .ok ()) :
    (spec.networks.filter NetworkSpec.default).length ≤ 1 := by
  have hnone : spec.violations = [] := by
    cases hviolations : spec.violations with
    | nil => rfl
    | cons v vs =>
      rw [validate, hviolations] at h
      cases h
  have hdefaults := (List.append_eq_nil_iff.mp hnone).2
  by_contra hmany
  simp [require, hmany] at hdefaults

/-- **The layout of every list of networks is well-formed**: there is one, cards and networks go
    together in it place by place under names of their own, the networks of the list are there once
    each, in order and unchanged, and the shared network is there, in front, exactly when none of
    them is the default. In a valid specification one network is then the default route: the shared
    one, or the only one that is marked so. -/
theorem layout_attaches_networks (specs : List NetworkSpec) :
    ∃ layout, NetworkLayout.ofSpecs specs = .ok layout ∧ layout.WellFormed specs
      ∧ ∀ spec : MachineSpec, spec.networks = specs → spec.validate = .ok () →
        ∃ n, layout.networks.filter Network.isDefaultRoute = [n] := by
  refine ⟨_, NetworkLayout.ofSpecs_eq specs, NetworkLayout.wellFormed specs _, ?_⟩
  rintro spec rfl hvalid
  exact List.length_eq_one_iff.mp
    (NetworkLayout.length_filter_isDefaultRoute_networksOf
      (MachineSpec.length_defaults_of_validate hvalid))

/-- A valid specification with two networks, the second of which is the default. -/
def MachineSpec.ofTwoNetworks : MachineSpec where
  sourceUrl := "http://images/golden"
  storageClassName := "fast"
  pvcSize := "10Gi"
  resources := { requests := TextMap.empty.insert "memory" "1Gi" }
  networks := [⟨"a", false⟩, ⟨"b", true⟩]

/-- A network that is the default takes the place of the shared one. -/
theorem layout_of_two_networks_has_default_route :
    MachineSpec.ofTwoNetworks.validate = .ok ()
      ∧ ∃ layout, NetworkLayout.ofSpecs MachineSpec.ofTwoNetworks.networks = .ok layout
        ∧ ∃ n, layout.networks.filter Network.isDefaultRoute = [n] := by
  have hvalid : MachineSpec.ofTwoNetworks.validate = .ok () := by decide
  obtain ⟨layout, hlayout, -, hroute⟩ :=
    layout_attaches_networks MachineSpec.ofTwoNetworks.networks
  exact ⟨hvalid, layout, hlayout, hroute _ rfl hvalid⟩

end MachineDriver
