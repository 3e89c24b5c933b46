import MachineDriver.Cluster.MergePatch
import Mathlib.Data.List.Basic

set_option autoImplicit false

/-!
# What a merge patch changes

A place in a document is told by the names of the fields that lead to it. `MergePatch.at?_apply`
says what is found at a place that the patch has too: what was there before, with the part of the
patch at this place laid over it. At a place that the patch does not have nothing changes
(`at?_apply_of_leaves`). A patch undoes another one of the same shape (`apply_apply`).

So the patch that starts or stops a machine writes its flag and the version that it is meant for,
and nothing else, whatever the document of the machine holds. -/

namespace MachineDriver

/-! ## Places in documents -/

namespace Json

/-- What a document holds at the end of a path of names. -/
def at? : Json → List String → Option Json
  | j, [] => some j
  | j, name :: path => (j.get? name).bind fun v => v.at? path

@[simp] theorem at?_nil (j : Json) : j.at? [] = some j := rfl

theorem at?_cons (j : Json) (name : String) (path : List String) :
    j.at? (name :: path) = (j.get? name).bind fun v => v.at? path := rfl

theorem at?_append (j : Json) (front rest : List String) :
    j.at? (front ++ rest) = (j.at? front).bind fun v => v.at? rest := by
  induction front generalizing j with
  | nil => rfl
  | cons name front ih =>
      rw [List.cons_append, at?_cons, at?_cons, Option.bind_assoc]
      exact congrArg _ (funext fun v => ih v)

theorem exists_fields_of_get? {j v : Json} {name : String} (h : j.get? name = some v) :
    ∃ fields, j = .object fields ∧ find? name fields = some v := by
  cases j with
  | object fields => exact ⟨fields, rfl, h⟩
  | _ => cases h

/-- No object of a document has two fields of one name. -/
def HasDistinctNames (j : Json) : Prop :=
  ∀ path fields, j.at? path = some (.object fields) → (fields.map Prod.fst).Nodup

theorem HasDistinctNames.of_get? {j v : Json} {name : String} (hj : j.HasDistinctNames)
    (h : j.get? name = some v) : v.HasDistinctNames := by
  intro path fields hv
  refine hj (name :: path) fields ?_
  rw [at?_cons, h]
  exact hv

theorem hasDistinctNames_of_scalar {j : Json} (h : ∀ fields, j ≠ .object fields) :
    j.HasDistinctNames := by
  intro path fields hpath
  cases path with
  | nil => exact absurd (Option.some.inj hpath) (h fields)
  | cons name path =>
      obtain ⟨v, hv, -⟩ := Option.bind_eq_some_iff.mp hpath
      obtain ⟨fields, rfl, -⟩ := exists_fields_of_get? hv
      exact absurd rfl (h fields)

theorem mem_of_find? {name : String} {v : Json} {fields : List (String × Json)}
    (h : find? name fields = some v) : (name, v) ∈ fields := by
  induction fields with
  | nil => cases h
  | cons f fields ih =>
      obtain ⟨k, w⟩ := f
      rw [find?] at h
      split at h
      · rename_i hk
        cases h
        rw [hk]
        exact List.mem_cons_self
      · exact List.mem_cons_of_mem _ (ih h)

theorem hasDistinctNames_object {fields : List (String × Json)}
    (hnames : (fields.map Prod.fst).Nodup)
    (hvalues : ∀ f ∈ fields, f.2.HasDistinctNames) : (Json.object fields).HasDistinctNames := by
  intro path fields' hpath
  cases path with
  | nil =>
      cases hpath
      exact hnames
  | cons name path =>
      obtain ⟨v, hv, hrest⟩ := Option.bind_eq_some_iff.mp hpath
      exact hvalues _ (mem_of_find? hv) path fields' hrest

end Json

namespace MergePatch

open Json (find?)

/-! ## One field -/

/-- The value of a field when one of a patch is laid over it. -/
def merged (old : Option Json) : Json → Option Json
  | .null => none
  | patch => some (apply old patch)

/-- The fields that result when one field of a patch is laid over those of a target. -/
def applyField (fields : List (String × Json)) (name : String) : Json → List (String × Json)
  | .null => erase name fields
  | patch => set name (apply (find? name fields) patch) fields

/-- The fields that a target has. -/
def fieldsOf : Option Json → List (String × Json)
  | some (.object fields) => fields
  | _ => []

theorem merged_of_ne_null {old : Option Json} {patch : Json} (h : patch ≠ .null) :
    merged old patch = some (apply old patch) := by
  cases patch <;> first | rfl | exact absurd rfl h

theorem applyField_of_ne_null {fields : List (String × Json)} {name : String} {patch : Json}
    (h : patch ≠ .null) :
    applyField fields name patch = set name (apply (find? name fields) patch) fields := by
  cases patch <;> first | rfl | exact absurd rfl h

theorem applyFields_cons (fields : List (String × Json)) (name : String) (patch : Json)
    (rest : List (String × Json)) :
    applyFields fields ((name, patch) :: rest)
      = applyFields (applyField fields name patch) rest := by
  cases patch <;> rfl

theorem apply_object (target : Option Json) (patch : List (String × Json)) :
    apply target (.object patch) = .object (applyFields (fieldsOf target) patch) := by
  cases target with
  | none => rfl
  | some j => cases j <;> rfl

theorem find?_fieldsOf (target : Option Json) (name : String) :
    find? name (fieldsOf target) = target.bind fun j => j.get? name := by
  cases target with
  | none => rfl
  | some j => cases j <;> rfl

theorem find?_applyField {fields : List (String × Json)} {name other : String} {patch : Json} :
    find? other (applyField fields name patch)
      = if other = name then merged (find? name fields) patch else find? other fields := by
  by_cases h : patch = .null
  · rw [h]
    exact find?_erase
  · rw [applyField_of_ne_null h, merged_of_ne_null h]
    exact find?_set

/-- A field that a patch does not have stays as it is. -/
theorem find?_applyFields_of_notMem {name : String} {patch : List (String × Json)}
    (h : name ∉ patch.map Prod.fst) (fields : List (String × Json)) :
    find? name (applyFields fields patch) = find? name fields := by
  induction patch generalizing fields with
  | nil => rfl
  | cons f patch ih =>
      obtain ⟨k, p⟩ := f
      rw [List.map_cons, List.mem_cons, not_or] at h
      rw [applyFields_cons, ih h.2, find?_applyField, if_neg h.1]

/-- On a field that a patch has, the value of the patch is laid. -/
theorem find?_applyFields {name : String} {value : Json} {patch : List (String × Json)}
    (hnames : (patch.map Prod.fst).Nodup) (h : find? name patch = some value)
    (fields : List (String × Json)) :
    find? name (applyFields fields patch) = merged (find? name fields) value := by
  induction patch generalizing fields with
  | nil => cases h
  | cons f patch ih =>
      obtain ⟨k, p⟩ := f
      rw [List.map_cons, List.nodup_cons] at hnames
      rw [find?] at h
      rw [applyFields_cons]
      by_cases hk : k = name
      · obtain rfl : p = value := by simpa [hk] using h
        rw [find?_applyFields_of_notMem (hk ▸ hnames.1), find?_applyField, if_pos hk.symm, hk]
      · rw [if_neg hk] at h
        rw [ih hnames.2 h, find?_applyField, if_neg (Ne.symm hk)]

/-! ## Places -/

/-- **At a place that the patch has**, there is afterwards what was there before with this part of
    the patch laid over it. -/
theorem at?_apply {patch value : Json} {path : List String} (hpatch : patch.HasDistinctNames)
    (hvalue : patch.at? path = some value) (hnull : value ≠ .null) (target : Option Json) :
    (apply target patch).at? path = some (apply (target.bind fun j => j.at? path) value) := by
  induction path generalizing patch target with
  | nil =>
      cases hvalue
      simp
  | cons name path ih =>
      obtain ⟨next, hnext, hrest⟩ := Option.bind_eq_some_iff.mp hvalue
      obtain ⟨fields, rfl, hfield⟩ := Json.exists_fields_of_get? hnext
      have hnext' : next ≠ .null := by
        rintro rfl
        cases path with
        | nil => exact hnull (Option.some.inj hrest).symm
        | cons => cases hrest
      have hmerged : (apply target (.object fields)).get? name
          = some (apply (target.bind fun j => j.get? name) next) := by
        rw [apply_object, ← find?_fieldsOf, ← merged_of_ne_null hnext']
        exact find?_applyFields (hpatch [] fields rfl) hfield _
      rw [Json.at?_cons, hmerged, Option.bind_some, ih (hpatch.of_get? hnext) hrest,
        Option.bind_assoc]
      rfl

/-- **At a place that the patch does not have**, since it has no such field in an object on the way
    there, there is what was there before. -/
theorem at?_apply_of_leaves {patch : Json} {front rest : List String} {name : String}
    {fields : List (String × Json)} (hpatch : patch.HasDistinctNames)
    (hfront : patch.at? front = some (.object fields)) (hname : name ∉ fields.map Prod.fst)
    (target : Option Json) : (apply target patch).at? (front ++ name :: rest)
      = target.bind fun j => j.at? (front ++ name :: rest) := by
  have hkept (old : Option Json) :
      (apply old (.object fields)).get? name = old.bind fun j => j.get? name := by
    rw [apply_object, ← find?_fieldsOf]
    exact find?_applyFields_of_notMem hname _
  rw [Json.at?_append, at?_apply hpatch hfront nofun, Option.bind_some, Json.at?_cons, hkept,
    Option.bind_assoc, Option.bind_assoc]
  simp only [Json.at?_append, Json.at?_cons]

/-! ## Patches of one shape -/

section Commuting

variable {name other : String} {value : Json} {fields : List (String × Json)}

theorem erase_erase_self : erase name (erase name fields) = erase name fields := by
  simp [erase]

theorem erase_comm : erase name (erase other fields) = erase other (erase name fields) := by
  simp [erase, List.filter_filter, Bool.and_comm]

theorem erase_set (h : name ≠ other) :
    erase name (set other value fields) = set other value (erase name fields) := by
  induction fields with
  | nil => simp [set, erase, Ne.symm h]
  | cons f fields ih =>
      obtain ⟨k, v⟩ := f
      rw [set, erase_cons]
      by_cases hk : k = other
      · rw [if_pos hk, if_neg (hk.trans_ne (Ne.symm h)), erase_cons, if_neg (Ne.symm h), set,
          if_pos hk, erase_comm]
      · rw [if_neg hk, erase_cons, ih]
        by_cases hname : k = name
        · rw [if_pos hname, if_pos hname]
        · rw [if_neg hname, if_neg hname, set, if_neg hk]

theorem set_set_self (earlier : Json) :
    set name value (set name earlier fields) = set name value fields := by
  induction fields with
  | nil => simp [set, erase]
  | cons f fields ih =>
      obtain ⟨k, v⟩ := f
      rw [set, set]
      by_cases hk : k = name
      · rw [if_pos hk, if_pos hk, set, if_pos rfl, erase_erase_self]
      · rw [if_neg hk, if_neg hk, set, if_neg hk, ih]

/-- A field that is there already can be set before or after another one. -/
theorem set_comm (h : name ≠ other) (there : find? name fields ≠ none) (value' : Json) :
    set name value (set other value' fields) = set other value' (set name value fields) := by
  induction fields with
  | nil => exact absurd rfl there
  | cons f fields ih =>
      obtain ⟨k, v⟩ := f
      by_cases hname : k = name
      · have hother : k ≠ other := hname.trans_ne h
        rw [set, if_neg hother, set, if_pos hname, set, if_pos hname, set, if_neg h, erase_set h]
      · rw [find?, if_neg hname] at there
        by_cases hother : k = other
        · rw [set, if_pos hother, set, if_neg (Ne.symm h), set, if_neg hname, set, if_pos hother,
            erase_set (Ne.symm h)]
        · rw [set, if_neg hother, set, if_neg hname, set, if_neg hname, set, if_neg hother,
            ih there]

theorem erase_applyField (h : name ≠ other) (patch : Json) :
    erase name (applyField fields other patch) = applyField (erase name fields) other patch := by
  by_cases hnull : patch = .null
  · rw [hnull]
    exact erase_comm
  · rw [applyField_of_ne_null hnull, applyField_of_ne_null hnull, erase_set h, find?_erase,
      if_neg (Ne.symm h)]

theorem set_applyField (h : name ≠ other) (there : find? name fields ≠ none) (patch : Json) :
    set name value (applyField fields other patch)
      = applyField (set name value fields) other patch := by
  by_cases hnull : patch = .null
  · rw [hnull]
    exact (erase_set (Ne.symm h)).symm
  · rw [applyField_of_ne_null hnull, applyField_of_ne_null hnull, set_comm h there, find?_set,
      if_neg (Ne.symm h)]

variable {patch : List (String × Json)}

theorem erase_applyFields (h : name ∉ patch.map Prod.fst) :
    erase name (applyFields fields patch) = applyFields (erase name fields) patch := by
  induction patch generalizing fields with
  | nil => rfl
  | cons f patch ih =>
      rw [List.map_cons, List.mem_cons, not_or] at h
      rw [applyFields_cons, applyFields_cons, ih h.2, erase_applyField h.1]

theorem set_applyFields (h : name ∉ patch.map Prod.fst) (there : find? name fields ≠ none) :
    set name value (applyFields fields patch) = applyFields (set name value fields) patch := by
  induction patch generalizing fields with
  | nil => rfl
  | cons f patch ih =>
      rw [List.map_cons, List.mem_cons, not_or] at h
      have there' : find? name (applyField fields f.1 f.2) ≠ none := by
        rwa [find?_applyField, if_neg h.1]
      rw [applyFields_cons, applyFields_cons, ih h.2 there', set_applyField h.1 there]

end Commuting

/-- Whether a patch replaces what was there, whatever that is. -/
def isValue : Json → Bool
  | .null => false
  | .object _ => false
  | _ => true

theorem apply_of_isValue {patch : Json} (h : isValue patch = true) (target : Option Json) :
    apply target patch = patch := by
  cases patch <;> first | rfl | cases h

mutual

/-- Two patches take away the same fields and set the same ones, each perhaps to another value. -/
inductive SameShape : Json → Json → Prop
  | null : SameShape .null .null
  | value {p q : Json} (hp : isValue p = true) (hq : isValue q = true) : SameShape p q
  | object {ps qs : List (String × Json)} (fields : SameFields ps qs) :
      SameShape (.object ps) (.object qs)

/-- The fields of two patches have the same names, all different, and values of the same shape. -/
inductive SameFields : List (String × Json) → List (String × Json) → Prop
  | nil : SameFields [] []
  | cons {name : String} {p q : Json} {ps qs : List (String × Json)}
      (new : name ∉ qs.map Prod.fst) (value : SameShape p q) (rest : SameFields ps qs) :
      SameFields ((name, p) :: ps) ((name, q) :: qs)

end

theorem SameShape.ne_null_iff {p q : Json} (h : SameShape p q) : p ≠ .null ↔ q ≠ .null := by
  cases h with
  | null => rfl
  | value hp hq =>
      constructor <;> rintro - rfl
      · cases hq
      · cases hp
  | object => simp

mutual

/-- **A patch undoes another one** of the same shape. -/
theorem apply_apply {p q : Json} (h : SameShape p q) (target : Option Json) :
    apply (some (apply target q)) p = apply target p := by
  cases h with
  | null => rfl
  | value hp hq => rw [apply_of_isValue hp, apply_of_isValue hp]
  | object fields =>
      rw [apply_object, apply_object, apply_object]
      exact congrArg Json.object (applyFields_applyFields fields _)

theorem applyFields_applyFields {ps qs : List (String × Json)} (h : SameFields ps qs)
    (fields : List (String × Json)) :
    applyFields (applyFields fields qs) ps = applyFields fields ps := by
  cases h with
  | nil => rfl
  | @cons name p q ps qs new value rest =>
      have hfield : applyField (applyFields (applyField fields name q) qs) name p
          = applyFields (applyField fields name p) qs := by
        by_cases hnull : p = .null
        · have hnull' : q = .null := by
            by_contra hq
            exact value.ne_null_iff.mpr hq hnull
          rw [hnull, hnull']
          exact (erase_applyFields new).trans (congrArg (applyFields · qs) erase_erase_self)
        · have hnull' := value.ne_null_iff.mp hnull
          have hfound : find? name (set name (apply (find? name fields) q) fields)
              = some (apply (find? name fields) q) := by
            rw [find?_set, if_pos rfl]
          rw [applyField_of_ne_null hnull, applyField_of_ne_null hnull',
            applyField_of_ne_null hnull, find?_applyFields_of_notMem new, hfound,
            apply_apply value, set_applyFields new (by simp [hfound]), set_set_self]
      rw [applyFields_cons, applyFields_cons, applyFields_cons, hfield,
        applyFields_applyFields rest]

end

/-! ## Starting and stopping a machine -/

/-- The document of a machine after the patch that sets whether it is to run. -/
def withRunning (version : Option String) (running : Bool) (machine : Json) : Json :=
  apply (some machine) (ofRunning version running)

/-- The places of the values in this patch. -/
def written (version : Option String) : List (List String) :=
  ["spec", "running"] :: version.toList.map fun _ => ["metadata", "resourceVersion"]

/-- Neither of two places is the other one or lies in it. -/
def Apart (path other : List String) : Prop :=
  ¬ path <+: other ∧ ¬ other <+: path

instance (path other : List String) : Decidable (Apart path other) :=
  inferInstanceAs (Decidable (_ ∧ _))

variable (version : Option String) (running : Bool)

theorem ofRunning_hasDistinctNames : (ofRunning version running).HasDistinctNames := by
  have hspec : (Json.object [("running", .bool running)]).HasDistinctNames :=
    Json.hasDistinctNames_object (by simp) fun f hf => by
      rw [List.mem_singleton.mp hf]
      exact Json.hasDistinctNames_of_scalar nofun
  cases version with
  | none =>
      exact Json.hasDistinctNames_object (by simp) fun f hf => by
        rw [List.mem_singleton.mp hf]
        exact hspec
  | some v =>
      refine Json.hasDistinctNames_object (by simp) fun f hf => ?_
      rcases List.mem_cons.mp hf with rfl | hf
      · refine Json.hasDistinctNames_object (by simp) fun f hf => ?_
        rw [List.mem_singleton.mp hf]
        exact Json.hasDistinctNames_of_scalar nofun
      · rw [List.mem_singleton.mp hf]
        exact hspec

/-- A place inside a field that is apart from the only value in this field is below another name. -/
theorem exists_other_name {name inner : String} {rest : List String}
    (h : Apart (name :: rest) [name, inner]) :
    ∃ other rest', rest = other :: rest' ∧ other ≠ inner := by
  cases rest with
  | nil => exact absurd (List.prefix_append [name] [inner]) h.1
  | cons other rest =>
      refine ⟨other, rest, rfl, ?_⟩
      rintro rfl
      exact h.2 (List.prefix_append [name, other] rest)

section Places

variable {version running}

theorem at?_ofRunning_spec :
    (ofRunning version running).at? ["spec"] = some (.object [("running", .bool running)]) := by
  cases version <;> rfl

theorem at?_ofRunning_flag :
    (ofRunning version running).at? ["spec", "running"] = some (.bool running) := by
  cases version <;> rfl

theorem at?_ofRunning_metadata {v : String} : (ofRunning (some v) running).at? ["metadata"]
    = some (.object [("resourceVersion", .string v)]) := rfl

theorem at?_ofRunning_version {v : String} :
    (ofRunning (some v) running).at? ["metadata", "resourceVersion"] = some (.string v) := rfl

end Places

/-- A place that is apart from all that the patch writes keeps what it holds. -/
theorem at?_withRunning_of_apart (machine : Json) {path : List String}
    (h : ∀ place ∈ written version, Apart path place) :
    (withRunning version running machine).at? path = machine.at? path := by
  have hdistinct := ofRunning_hasDistinctNames version running
  have hflag : Apart path ["spec", "running"] := h _ List.mem_cons_self
  cases path with
  | nil => exact absurd List.nil_prefix hflag.1
  | cons name rest =>
      by_cases hspec : name = "spec"
      · subst hspec
        obtain ⟨other, rest, rfl, hother⟩ := exists_other_name hflag
        exact at?_apply_of_leaves hdistinct at?_ofRunning_spec (by simpa using hother)
          (some machine)
      · cases version with
        | none =>
            have hwhole := Json.at?_nil (ofRunning none running)
            exact at?_apply_of_leaves hdistinct hwhole (by simpa using hspec) (some machine)
        | some v =>
            by_cases hmeta : name = "metadata"
            · subst hmeta
              have hversion : Apart ("metadata" :: rest) ["metadata", "resourceVersion"] :=
                h _ (List.mem_cons_of_mem _ (List.mem_singleton_self _))
              obtain ⟨other, rest, rfl, hother⟩ := exists_other_name hversion
              exact at?_apply_of_leaves hdistinct at?_ofRunning_metadata (by simpa using hother)
                (some machine)
            · have hwhole := Json.at?_nil (ofRunning (some v) running)
              exact at?_apply_of_leaves hdistinct hwhole (by simpa using ⟨hmeta, hspec⟩)
                (some machine)

/-- What is around the only value of a field: the whole and the field. -/
theorem eq_of_prefix_of_ne {path : List String} {name inner : String}
    (h : path <+: [name, inner]) (hne : path ≠ [name, inner]) : path = [] ∨ path = [name] := by
  match path with
  | [] => exact .inl rfl
  | [x] => exact .inr (by simpa using h)
  | [x, y] => exact absurd (by simpa using h) hne
  | x :: y :: z :: rest => simp at h

theorem exists_fields_at?_ofRunning {place path : List String} (hplace : place ∈ written version)
    (houter : path <+: place) (hne : path ≠ place) :
    ∃ fields, (ofRunning version running).at? path = some (.object fields) := by
  rcases List.mem_cons.mp hplace with rfl | hplace
  · rcases eq_of_prefix_of_ne houter hne with rfl | rfl
    · cases version <;> exact ⟨_, rfl⟩
    · exact ⟨_, at?_ofRunning_spec⟩
  · cases version with
    | none => cases hplace
    | some v =>
        obtain rfl := List.mem_singleton.mp hplace
        rcases eq_of_prefix_of_ne houter hne with rfl | rfl
        · exact ⟨_, rfl⟩
        · exact ⟨_, at?_ofRunning_metadata⟩

theorem sameShape_ofRunning (earlier : Bool) :
    SameShape (ofRunning version running) (ofRunning version earlier) := by
  have hspec : SameShape (.object [("running", .bool running)])
      (.object [("running", .bool earlier)]) :=
    .object (.cons (by simp) (.value rfl rfl) .nil)
  cases version with
  | none => exact .object (.cons (by simp) hspec .nil)
  | some v =>
      exact .object (.cons (by simp) (.object (.cons (by simp) (.value rfl rfl) .nil))
        (.cons (by simp) hspec .nil))

/-- **To start or to stop a machine writes nothing but the flag**, and the version that it is meant
    for, if there is one. Whatever the document of the machine holds, fields that nobody knows among
    them: afterwards it has the flag and the version, it still has an object around each of them,
    and at every place that is apart from these two it holds what it held before. When the machine
    was started or stopped before, for the same version, nothing of that is left: doing it twice is
    doing it once, and of two different flags the last one counts. -/
theorem withRunning_writes_flag_only (machine : Json) :
    (withRunning version running machine).at? ["spec", "running"] = some (.bool running)
      ∧ (∀ v, version = some v →
        (withRunning version running machine).at? ["metadata", "resourceVersion"]
          = some (.string v))
      ∧ (∀ path, (∀ place ∈ written version, Apart path place) →
        (withRunning version running machine).at? path = machine.at? path)
      ∧ (∀ place ∈ written version, ∀ path, path <+: place → path ≠ place →
        ∃ fields, (withRunning version running machine).at? path = some (.object fields))
      ∧ ∀ earlier, withRunning version running (withRunning version earlier machine)
        = withRunning version running machine := by
  have hdistinct := ofRunning_hasDistinctNames version running
  refine ⟨?_, ?_, fun path h => at?_withRunning_of_apart version running machine h, ?_,
    fun earlier => apply_apply (sameShape_ofRunning version running earlier) _⟩
  · exact at?_apply hdistinct at?_ofRunning_flag nofun _
  · rintro v rfl
    exact at?_apply hdistinct at?_ofRunning_version nofun _
  · intro place hplace path houter hne
    obtain ⟨fields, hfields⟩ := exists_fields_at?_ofRunning version running hplace houter hne
    exact ⟨_, (at?_apply hdistinct hfields nofun _).trans (congrArg some (apply_object _ _))⟩

/-- The document of a machine that runs, with a mark and a clock that no type here knows. -/
def strangeMachine : Json :=
  .object [("kind", .string "VirtualMachine"),
    ("metadata", .object [("name", .string "a"), ("resourceVersion", .string "41"),
      ("mark", .array [.null, .object []])]),
    ("spec", .object [("template", .object [("clock", .object [("utc", .object [])])]),
      ("running", .bool true)])]

/-- A machine with fields that no type here knows keeps them when it is stopped. -/
theorem withRunning_keeps_strange_fields :
    (withRunning (some "42") false strangeMachine).at? ["spec", "running"] = some (.bool false)
      ∧ (withRunning (some "42") false strangeMachine).at? ["metadata", "resourceVersion"]
        = some (.string "42")
      ∧ (withRunning (some "42") false strangeMachine).at? ["spec", "template", "clock"]
        = some (.object [("utc", .object [])])
      ∧ ∃ fields, (withRunning (some "42") false strangeMachine).at? ["metadata"]
        = some (.object fields) := by
  obtain ⟨hflag, hversion, hkept, haround, -⟩ :=
    withRunning_writes_flag_only (some "42") false strangeMachine
  refine ⟨hflag, hversion "42" rfl, (hkept _ ?_).trans rfl, ?_⟩
  · decide
  · exact haround ["metadata", "resourceVersion"] (by decide) _ (by decide) (by decide)

end MergePatch

end MachineDriver
