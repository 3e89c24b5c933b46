import MachineDriver.Proofs.Addressing

set_option autoImplicit false

/-!
# What a label selector selects

A selector is a list of requirements with commas between them, each of them a name and a value with
an equals sign between them; nothing in it is escaped. `LabelSelector.Reads` says how a cluster
reads one, and `LabelSelector.Selects` which labels it selects. A listing of machines sends the
selector of its labels as it is: `Exchange.selector?_listVirtualMachines`.

`LabelSelector.means_labels_iff_isPlain` says that a selector means the labels that it was made of
exactly when these are free of the characters that take a selector apart. -/

namespace MachineDriver

/-! ## Names with values -/

/-- A name and a value: a text up to its first equals sign, and what comes after it. -/
def Text.readPair? (cs : List Char) : Option (List Char × List Char) :=
  match cs.dropWhile (· ≠ '=') with
  | [] => none
  | _ :: value => some (cs.takeWhile (· ≠ '='), value)

theorem Text.readPair?_eq_some_iff {cs name value : List Char} :
    readPair? cs = some (name, value) ↔ '=' ∉ name ∧ cs = name ++ '=' :: value := by
  constructor
  · intro h
    unfold readPair? at h
    split at h
    · cases h
    · rename_i c rest hdrop
      cases h
      exact ⟨notMem_takeWhile_ne '=' cs, eq_append_of_dropWhile_ne hdrop⟩
  · rintro ⟨hname, rfl⟩
    rw [readPair?, dropWhile_ne_append hname, takeWhile_ne_append hname]

/-! ## Reading a selector -/

namespace LabelSelector

/-- The label that a requirement asks for. -/
def readRequirement? (cs : List Char) : Option (String × String) :=
  (Text.readPair? cs).map fun (name, value) => (String.ofList name, String.ofList value)

/-- A selector is read as a list of requirements, one for each part between commas. -/
def Reads (selector : String) (requirements : List (String × String)) : Prop :=
  (selector.toList.splitOn ',').map readRequirement? = requirements.map some

instance (selector : String) (requirements : List (String × String)) :
    Decidable (Reads selector requirements) :=
  inferInstanceAs (Decidable (_ = _))

/-- A selector selects the labels that meet all its requirements. -/
def Selects (selector : String) (labels : TextMap String) : Prop :=
  ∃ requirements, Reads selector requirements
    ∧ ∀ r ∈ requirements, labels.get? r.1 = some r.2

/-- A label without the characters that take a selector apart; an equals sign in a value is not
    among them. -/
structure IsPlainLabel (label : String × String) : Prop where
  comma_notMem_name : ',' ∉ label.1.toList
  sign_notMem_name : '=' ∉ label.1.toList
  comma_notMem_value : ',' ∉ label.2.toList

/-- All labels of a map are plain. -/
def IsPlain (labels : TextMap String) : Prop :=
  ∀ label ∈ labels.entries, IsPlainLabel label

instance : DecidablePred IsPlainLabel := fun label =>
  decidable_of_iff (',' ∉ label.1.toList ∧ '=' ∉ label.1.toList ∧ ',' ∉ label.2.toList)
    ⟨fun ⟨h, h', h''⟩ => ⟨h, h', h''⟩, fun ⟨h, h', h''⟩ => ⟨h, h', h''⟩⟩

instance (labels : TextMap String) : Decidable (IsPlain labels) :=
  inferInstanceAs (Decidable (∀ label ∈ labels.entries, IsPlainLabel label))

theorem toList_requirement (label : String × String) :
    (requirement label).toList = label.1.toList ++ '=' :: label.2.toList := by
  rw [requirement, String.toList_append, String.toList_append, List.append_assoc]
  rfl

theorem comma_notMem_requirement_iff {label : String × String} :
    ',' ∉ (requirement label).toList ↔ ',' ∉ label.1.toList ∧ ',' ∉ label.2.toList := by
  simp [toList_requirement]

theorem readRequirement?_eq_some_iff {cs : List Char} {label : String × String} :
    readRequirement? cs = some label
      ↔ '=' ∉ label.1.toList ∧ cs = (requirement label).toList := by
  rw [readRequirement?, Option.map_eq_some_iff, toList_requirement]
  constructor
  · rintro ⟨⟨name, value⟩, hpair, rfl⟩
    simpa using Text.readPair?_eq_some_iff.mp hpair
  · intro h
    exact ⟨(label.1.toList, label.2.toList), Text.readPair?_eq_some_iff.mpr h, by simp⟩

theorem Reads.unique {selector : String} {rs rs' : List (String × String)} (h : Reads selector rs)
    (h' : Reads selector rs') : rs = rs' :=
  (List.map_inj_right fun _ _ => Option.some.inj).mp (h.symm.trans h')

/-- Whatever is read is plain. -/
theorem Reads.isPlainLabel {selector : String} {rs : List (String × String)}
    (h : Reads selector rs) {r : String × String} (hr : r ∈ rs) : IsPlainLabel r := by
  have hmem : some r ∈ (selector.toList.splitOn ',').map readRequirement? := by
    rw [h]
    exact List.mem_map_of_mem hr
  obtain ⟨part, hpart, hread⟩ := List.mem_map.mp hmem
  obtain ⟨hsign, rfl⟩ := readRequirement?_eq_some_iff.mp hread
  obtain ⟨hname, hvalue⟩ := comma_notMem_requirement_iff.mp (Text.notMem_of_mem_splitOn hpart)
  exact ⟨hname, hsign, hvalue⟩

/-! ## The selector of labels -/

variable {labels : TextMap String} {selector : String}

theorem exists_ofLabels? (h : labels.isEmpty = false) :
    ∃ selector, ofLabels? labels = some selector := by
  rw [ofLabels?, if_neg (Bool.eq_false_iff.mp h)]
  exact ⟨_, rfl⟩

theorem entries_ne_nil_of_ofLabels? (h : ofLabels? labels = some selector) :
    labels.entries ≠ [] := by
  rintro hnil
  rw [ofLabels?, if_pos (by rw [TextMap.isEmpty, hnil]; rfl)] at h
  cases h

theorem toList_of_ofLabels? (h : ofLabels? labels = some selector) :
    selector.toList = [','].intercalate (labels.entries.map fun e => (requirement e).toList) := by
  unfold ofLabels? at h
  split at h
  · cases h
  · cases h
    rw [String.toList_intercalate, List.map_map]
    rfl

/-- The selector of plain labels is read as these labels. -/
theorem reads_of_isPlain (h : ofLabels? labels = some selector) (hplain : IsPlain labels) :
    Reads selector labels.entries := by
  have hparts : selector.toList.splitOn ','
      = labels.entries.map fun e => (requirement e).toList := by
    rw [toList_of_ofLabels? h]
    refine List.splitOn_intercalate ',' ?_ (by simpa using entries_ne_nil_of_ofLabels? h)
    rintro part hpart
    obtain ⟨label, hlabel, rfl⟩ := List.mem_map.mp hpart
    have hl := hplain label hlabel
    exact comma_notMem_requirement_iff.mpr ⟨hl.comma_notMem_name, hl.comma_notMem_value⟩
  rw [Reads, hparts, List.map_map]
  exact List.map_congr_left fun label hlabel =>
    readRequirement?_eq_some_iff.mpr ⟨(hplain label hlabel).sign_notMem_name, rfl⟩

/-- A selector is read as the labels it was made of exactly when these are plain. -/
theorem reads_labels_iff (h : ofLabels? labels = some selector) :
    (∃ rs, Reads selector rs ∧ ∀ e, e ∈ rs ↔ e ∈ labels.entries) ↔ IsPlain labels := by
  constructor
  · rintro ⟨rs, hreads, hsame⟩ label hlabel
    exact hreads.isPlainLabel ((hsame label).mpr hlabel)
  · intro hplain
    exact ⟨labels.entries, reads_of_isPlain h hplain, fun _ => Iff.rfl⟩

theorem isSubmapOf_iff_entries {m n : TextMap String} :
    m.isSubmapOf n = true ↔ ∀ e ∈ m.entries, n.get? e.1 = some e.2 := by
  simp [TextMap.isSubmapOf]

/-- Where a selector selects all labels that contain those it was made of, and no others, these are
    plain. -/
theorem isPlain_of_selects_iff (h : ∀ carried, Selects selector carried
    ↔ labels.isSubmapOf carried = true) : IsPlain labels := by
  -- The labels themselves are selected, so all that the selector requires is among them.
  obtain ⟨rs, hreads, hmet⟩ :=
    (h labels).mpr (TextMap.isSubmapOf_iff.mpr fun _ _ hget => hget)
  intro label hlabel
  by_contra hnot
  -- A label that is not plain is not required, and without it the labels are still selected.
  have hselects : Selects selector (labels.erase label.1) := by
    refine ⟨rs, hreads, fun r hr => ?_⟩
    have hne : r.1 ≠ label.1 := by
      intro heq
      have hget := hmet r hr
      rw [heq, (labels.get?_eq_some_iff label.1 label.2).mpr hlabel] at hget
      have hsame : r = label := Prod.ext heq (Option.some.inj hget).symm
      exact hnot (hsame ▸ hreads.isPlainLabel hr)
    rw [TextMap.get?_erase, if_neg hne]
    exact hmet r hr
  have hcontained := isSubmapOf_iff_entries.mp ((h _).mp hselects) label hlabel
  rw [TextMap.get?_erase, if_pos rfl] at hcontained
  cases hcontained

/-- A selector selects the labels that contain those it was made of exactly when these are plain. -/
theorem selects_iff_isPlain (h : ofLabels? labels = some selector) :
    (∀ vm : VirtualMachine, Selects selector vm.metadata.labelMap
      ↔ labels.isSubmapOf vm.metadata.labelMap = true) ↔ IsPlain labels := by
  constructor
  · intro hall
    have hcarried : ∀ carried, Selects selector carried ↔ labels.isSubmapOf carried = true :=
      fun carried => hall { (default : VirtualMachine) with metadata := { labels := some carried } }
    exact isPlain_of_selects_iff hcarried
  · intro hplain vm
    have hreads := reads_of_isPlain h hplain
    rw [isSubmapOf_iff_entries]
    constructor
    · rintro ⟨rs, hrs, hmet⟩
      rwa [hrs.unique hreads] at hmet
    · exact fun hmet => ⟨labels.entries, hreads, hmet⟩

end LabelSelector

/-! ## The request of a listing -/

/-- The value of a parameter in the query of a request. -/
def ApiRequest.parameter? (r : ApiRequest) (name : List Char) : Option (List Char) :=
  (((r.query.drop 1).splitOn '&').filterMap Text.readPair?).lookup name

/-- The name of the parameter that holds a label selector. -/
def selectorName : List Char := "labelSelector".toList

/-- The label selector that a request carries. -/
def ApiRequest.selector? (r : ApiRequest) : Option String :=
  (r.parameter? selectorName).bind fun value =>
    (Text.Percent.decodeForm (String.ofList value)).toOption

namespace Exchange

/-- The parameter by which a listing asks for labels. -/
def selectorParameter (selector : String) : List Char :=
  selectorName ++ '=' :: (Text.Percent.encodeForm selector).toList

theorem notMem_selectorParameter (selector : String) :
    '&' ∉ selectorParameter selector ∧ '#' ∉ selectorParameter selector := by
  have hname : '&' ∉ selectorName ∧ '#' ∉ selectorName := by decide
  have hand := Text.Percent.notMem_encodeForm (c := '&') (by decide) (by decide) (by decide)
    (by decide) selector
  have hhash := Text.Percent.notMem_encodeForm (c := '#') (by decide) (by decide) (by decide)
    (by decide) selector
  simp [selectorParameter, hname, hand, hhash]

/-- The place of the machines of a namespace. -/
theorem toList_machinesPlace (ns : String) : (VirtualMachine.resource.path (some ns)).toList
    = namespacesPath ++ '/' :: (ns.toList ++ '/' :: machinesSegment) := by
  have hplace : (VirtualMachine.resource.path (some ns)).toList ++ ['/']
      = machinePath ns.toList [] := by
    have hname := toList_objectPlace_machine ns ""
    rwa [objectPlace, String.append_empty, String.toList_append] at hname
  refine List.append_cancel_right (hplace.trans ?_)
  simp only [machinePath, List.append_assoc, List.cons_append]

theorem exists_machinesPlace_eq_cons (ns : String) :
    ∃ rest, (VirtualMachine.resource.path (some ns)).toList = '/' :: rest := by
  have hfront : namespacesPath = '/' :: "apis/kubevirt.io/v1/namespaces".toList := by decide
  rw [toList_machinesPlace, hfront]
  exact ⟨_, List.cons_append⟩

/-- Nothing in a place ends the path, if nothing in the namespace does. -/
theorem inner_of_mem_machinesPlace {ns : String} (hns : ∀ c ∈ ns.toList, c ≠ '?' ∧ c ≠ '#') :
    ∀ c ∈ (VirtualMachine.resource.path (some ns)).toList, c ≠ '?' ∧ c ≠ '#' := by
  intro c hc
  refine inner_of_mem_machinePath hns (List.forall_mem_nil _) c ?_
  rw [toList_machinesPlace] at hc
  simp only [machinePath, List.mem_append, List.mem_cons] at hc ⊢
  rcases hc with hc | hc | hc | hc | hc <;> simp [hc]

variable {ns selector : String} {labels : TextMap String} {r : ApiRequest}

theorem query_listVirtualMachines (hns : ∀ c ∈ ns.toList, c ≠ '?' ∧ c ≠ '#')
    (hselector : LabelSelector.ofLabels? labels = some selector)
    (h : (listVirtualMachines ns labels).request = .ok r) :
    r.query = '?' :: '&' :: selectorParameter selector := by
  have hinner := inner_of_mem_machinesPlace hns
  have hplace : (VirtualMachine.resource.path (some ns) ++ "?"
      ++ ("&labelSelector=" ++ Text.Percent.encodeForm selector)).toList
      = (VirtualMachine.resource.path (some ns)).toList
        ++ '?' :: '&' :: selectorParameter selector := by
    rw [String.toList_append, String.toList_append, String.toList_append, List.append_assoc]
    rfl
  have hwhole : ∀ c ∈ (VirtualMachine.resource.path (some ns)).toList
      ++ '?' :: '&' :: selectorParameter selector, decide (c ≠ '#') = true := by
    intro c hc
    refine decide_eq_true fun heq => ?_
    rw [heq, List.mem_append, List.mem_cons, List.mem_cons] at hc
    rcases hc with hc | hc | hc | hc
    · exact (hinner _ hc).2 rfl
    · cases hc
    · cases hc
    · exact (notMem_selectorParameter selector).2 hc
  simp only [listVirtualMachines, hselector] at h
  obtain ⟨rest, hrest⟩ := exists_machinesPlace_eq_cons ns
  have htarget := MachineCall.target_of_requestTo (hplace.trans (by rw [hrest]; rfl)) h
  rw [hplace, List.takeWhile_eq_self_iff.mpr hwhole] at htarget
  rw [ApiRequest.query, htarget,
    List.dropWhile_append_of_pos fun c hc => decide_eq_true (hinner c hc).1,
    List.dropWhile_cons_of_neg (by decide)]

/-- A listing asks for its labels by their selector, in every namespace that stays within the
    path. -/
theorem selector?_listVirtualMachines (hns : ∀ c ∈ ns.toList, c ≠ '?' ∧ c ≠ '#')
    (hselector : LabelSelector.ofLabels? labels = some selector)
    (h : (listVirtualMachines ns labels).request = .ok r) : r.selector? = some selector := by
  have hparts : ('&' :: selectorParameter selector).splitOn '&'
      = [[], selectorParameter selector] := by
    have hfirst := List.splitOn_append_cons_self (a := '&') [] (selectorParameter selector)
    rwa [List.nil_append, List.splitOn_nil, List.singleton_append,
      List.splitOn_eq_singleton (notMem_selectorParameter selector).1] at hfirst
  have hpair : Text.readPair? (selectorParameter selector)
      = some (selectorName, (Text.Percent.encodeForm selector).toList) :=
    Text.readPair?_eq_some_iff.mpr ⟨by decide, rfl⟩
  have hparameter : r.parameter? selectorName
      = some (Text.Percent.encodeForm selector).toList := by
    rw [ApiRequest.parameter?, query_listVirtualMachines hns hselector h, List.drop_one,
      List.tail_cons, hparts, List.filterMap_cons_none rfl, List.filterMap_cons_some hpair,
      List.lookup_cons_self]
  rw [ApiRequest.selector?, hparameter, Option.bind_some, String.ofList_toList,
    Text.Percent.decodeForm_encodeForm]
  rfl

end Exchange

/-! ## Plain labels -/

namespace LabelSelector

/-- **When a selector means its labels.** The selector of some labels is what a listing asks for. It
    is read as these labels, and it selects the machines that carry all of them, exactly when the
    labels are free of the characters that take a selector apart; and then no other labels that are
    free of them have the same selector. -/
theorem means_labels_iff_isPlain (labels : TextMap String) (hlabels : labels.isEmpty = false) :
    ∃ selector, ofLabels? labels = some selector
      ∧ (∀ (ns : String) (r : ApiRequest), (∀ c ∈ ns.toList, c ≠ '?' ∧ c ≠ '#') →
        (Exchange.listVirtualMachines ns labels).request = .ok r → r.selector? = some selector)
      ∧ ((∃ rs, Reads selector rs ∧ ∀ e, e ∈ rs ↔ e ∈ labels.entries) ↔ IsPlain labels)
      ∧ ((∀ vm : VirtualMachine, Selects selector vm.metadata.labelMap
        ↔ labels.isSubmapOf vm.metadata.labelMap = true) ↔ IsPlain labels)
      ∧ (IsPlain labels → ∀ other : TextMap String, IsPlain other →
        ofLabels? other = some selector → other = labels) := by
  obtain ⟨selector, hselector⟩ := exists_ofLabels? hlabels
  refine ⟨selector, hselector, fun ns r hns h => ?_, reads_labels_iff hselector,
    selects_iff_isPlain hselector, fun hplain other hother hsame => ?_⟩
  · exact Exchange.selector?_listVirtualMachines hns hselector h
  · have hreads := reads_of_isPlain hselector hplain
    exact TextMap.ext ((reads_of_isPlain hsame hother).unique hreads)

/-- A listing for two labels asks for both and selects the machines that carry both. -/
theorem means_labels_of_two :
    ∃ selector r, ofLabels? (.ofList [("env", "prod"), ("app", "worker")]) = some selector
      ∧ (Exchange.listVirtualMachines "vms" (.ofList [("env", "prod"), ("app", "worker")])).request
        = .ok r
      ∧ r.selector? = some selector
      ∧ ∀ vm : VirtualMachine, Selects selector vm.metadata.labelMap
        ↔ (TextMap.ofList [("env", "prod"), ("app", "worker")]).isSubmapOf
          vm.metadata.labelMap := by
  have hplain : IsPlain (.ofList [("env", "prod"), ("app", "worker")]) := by decide
  obtain ⟨r, hr⟩ : ∃ r, (Exchange.listVirtualMachines "vms"
      (.ofList [("env", "prod"), ("app", "worker")])).request = .ok r := ⟨_, rfl⟩
  obtain ⟨selector, hselector, hrequest, -, hselects, -⟩ :=
    means_labels_iff_isPlain (.ofList [("env", "prod"), ("app", "worker")]) (by decide)
  have hns : "vms".toList.all (fun c => c ≠ '?' ∧ c ≠ '#') = true := by decide
  refine ⟨selector, r, hselector, hr, hrequest "vms" r (fun c hc => ?_) hr, hselects.mpr hplain⟩
  exact of_decide_eq_true (List.all_eq_true.mp hns c hc)

/-- A comma in a value makes another requirement of what follows it: two different maps have one
    selector, and a listing for a label selects a machine that does not carry this label. -/
theorem comma_makes_requirement :
    ∃ selector, ofLabels? (.ofList [("a", "x,b=y")]) = some selector
      ∧ ofLabels? (.ofList [("a", "x"), ("b", "y")]) = some selector
      ∧ Reads selector [("a", "x"), ("b", "y")]
      ∧ Selects selector (.ofList [("a", "x"), ("b", "y")])
      ∧ (TextMap.ofList [("a", "x,b=y")]).isSubmapOf (.ofList [("a", "x"), ("b", "y")]) = false :=
  have hreads : Reads "a=x,b=y" [("a", "x"), ("b", "y")] := by decide
  ⟨"a=x,b=y", by decide, by decide, hreads, ⟨_, hreads, by decide⟩, by decide⟩

end LabelSelector

end MachineDriver
