import MachineDriver.Machine.Spec
import MachineDriver.Proofs.Cutting
import Mathlib.Data.List.Sort
import Mathlib.Data.Prod.Lex

set_option autoImplicit false

/-!
# What a rejected specification is told

`MachineSpec.Violates` says which conditions a specification does not meet, and at which places of
its lists, without a word about how they are looked for; `mem_violations_iff` that these are the
violations that are found. They are told in the order of their ranks, in a text that
`Text.splitPair` takes apart again, since no message has a semicolon.

`MachineSpec.validate_reports_violations` concludes that nothing is told of a valid specification,
and that of any other exactly its violations are told. -/

namespace MachineDriver

/-! ## Violations -/

namespace Violation

/-- Where a violation is told: by its condition, and by its place in the list among those of the
    same condition. -/
def rank : Violation → Nat ×ₗ Nat
  | .noSource => toLex (0, 0)
  | .noStorageClass => toLex (1, 0)
  | .noSize => toLex (2, 0)
  | .noMemoryRequest => toLex (3, 0)
  | .blankKey i => toLex (4, i)
  | .blankNetwork i => toLex (5, i)
  | .severalDefaults => toLex (6, 0)

/-- No message has a semicolon. -/
theorem semicolon_notMem_message (v : Violation) : ';' ∉ v.message.toList := by
  cases v with
  | blankKey i => simp [message, Text.notMem_decimal]
  | blankNetwork i => simp [message, Text.notMem_decimal]
  | _ => decide

/-- Different violations have different messages. -/
theorem message_injective : Function.Injective message := by
  intro v w h
  -- The first two letters of a message tell its condition.
  have hletters := congrArg (fun text => text.toList.take 2) h
  cases v <;> cases w <;> simp [message] at hletters h ⊢
  · exact Text.decimal_inj (String.ofList_inj.mp h)
  · exact Text.decimal_inj (String.ofList_inj.mp h)

end Violation

namespace MachineSpec

theorem mem_require_iff {met : Bool} {v w : Violation} :
    v ∈ require met w ↔ met = false ∧ v = w := by
  cases met <;> simp [require]

/-- The blank places of a list are found, counted from the number that is given. -/
theorem mem_blankPlaces_iff {texts : List String} {place i : Nat} :
    i ∈ blankPlaces place texts
      ↔ ∃ k text, i = place + k ∧ texts[k]? = some text ∧ Text.isBlankText text = true := by
  induction texts generalizing place with
  | nil => simp [blankPlaces]
  | cons text texts ih =>
      have hcons : i ∈ blankPlaces place (text :: texts)
          ↔ (Text.isBlankText text = true ∧ i = place) ∨ i ∈ blankPlaces (place + 1) texts := by
        rw [blankPlaces]
        split
        · rename_i h
          simp [h]
        · rename_i h
          simp [h]
      rw [hcons, ih]
      constructor
      · rintro (⟨hblank, rfl⟩ | ⟨k, found, rfl, hfound, hblank⟩)
        · exact ⟨0, text, rfl, rfl, hblank⟩
        · exact ⟨k + 1, found, by omega, hfound, hblank⟩
      · rintro ⟨k, found, rfl, hfound, hblank⟩
        cases k with
        | zero =>
            cases hfound
            exact .inl ⟨hblank, rfl⟩
        | succ k => exact .inr ⟨k, found, by omega, hfound, hblank⟩

theorem le_of_mem_blankPlaces {texts : List String} {place i : Nat}
    (h : i ∈ blankPlaces place texts) : place ≤ i := by
  obtain ⟨k, -, rfl, -, -⟩ := mem_blankPlaces_iff.mp h
  exact Nat.le_add_right place k

theorem pairwise_blankPlaces (texts : List String) (place : Nat) :
    (blankPlaces place texts).Pairwise (· < ·) := by
  induction texts generalizing place with
  | nil => exact List.Pairwise.nil
  | cons text texts ih =>
      rw [blankPlaces]
      split
      · exact List.pairwise_cons.mpr ⟨fun i hi => le_of_mem_blankPlaces hi, ih _⟩
      · exact ih _

/-! ## Conditions -/

/-- A specification does not meet a condition. -/
def Violates (s : MachineSpec) : Violation → Prop
  | .noSource => Text.trim s.sourceUrl = ""
  | .noStorageClass => Text.trim s.storageClassName = ""
  | .noSize => Text.trim s.pvcSize = ""
  | .noMemoryRequest => s.resources.requests.get? "memory" = none
  | .blankKey i => ∃ key, s.sshKeys[i]? = some key ∧ Text.trim key = ""
  | .blankNetwork i => ∃ network, s.networks[i]? = some network ∧ Text.trim network.name = ""
  | .severalDefaults => ∃ (i j : Nat) (first second : NetworkSpec), i < j
      ∧ s.networks[i]? = some first ∧ s.networks[j]? = some second
      ∧ first.default = true ∧ second.default = true

/-- A specification meets all conditions. -/
structure Valid (s : MachineSpec) : Prop where
  source : Text.trim s.sourceUrl ≠ ""
  storageClass : Text.trim s.storageClassName ≠ ""
  size : Text.trim s.pvcSize ≠ ""
  memory : ∃ amount, s.resources.requests.get? "memory" = some amount
  keys : ∀ key ∈ s.sshKeys, Text.trim key ≠ ""
  networks : ∀ network ∈ s.networks, Text.trim network.name ≠ ""
  default : s.networks.countP NetworkSpec.default ≤ 1

theorem length_filter_le_one_iff {α : Type} {p : α → Bool} {l : List α} :
    (l.filter p).length ≤ 1 ↔ l.Pairwise (fun a b => ¬(p a = true ∧ p b = true)) := by
  induction l with
  | nil => simp
  | cons a l ih =>
      rw [List.pairwise_cons, ← ih, List.filter_cons]
      split
      · rename_i h
        have hnone : (l.filter p).length + 1 ≤ 1 ↔ ∀ b ∈ l, ¬p b = true := by
          rw [← List.filter_eq_nil_iff, ← List.length_eq_zero_iff]
          omega
        rw [List.length_cons, hnone]
        simp only [h, true_and]
        refine ⟨fun hall => ⟨hall, ?_⟩, And.left⟩
        rw [List.filter_eq_nil_iff.mpr hall]
        exact Nat.zero_le 1
      · rename_i h
        simp [h]

/-- A list has two of a kind if there are two places that hold one. -/
theorem one_lt_length_filter_iff {α : Type} {p : α → Bool} {l : List α} :
    1 < (l.filter p).length ↔ ∃ (i j : Nat) (a b : α), i < j ∧ l[i]? = some a ∧ l[j]? = some b
      ∧ p a = true ∧ p b = true := by
  rw [← not_le, length_filter_le_one_iff, List.pairwise_iff_getElem]
  constructor
  · intro h
    push Not at h
    obtain ⟨i, j, hi, hj, hlt, hfirst, hsecond⟩ := h
    exact ⟨i, j, l[i], l[j], hlt, List.getElem?_eq_getElem hi, List.getElem?_eq_getElem hj, hfirst,
      hsecond⟩
  · rintro ⟨i, j, a, b, hlt, hfirst, hsecond, ha, hb⟩ hnone
    obtain ⟨hi, rfl⟩ := List.getElem?_eq_some_iff.mp hfirst
    obtain ⟨hj, rfl⟩ := List.getElem?_eq_some_iff.mp hsecond
    exact hnone i j hi hj hlt ⟨ha, hb⟩

/-- The violations that are found are those that there are. -/
theorem mem_violations_iff {s : MachineSpec} {v : Violation} :
    v ∈ s.violations ↔ s.Violates v := by
  simp only [violations, List.mem_append, mem_require_iff, List.mem_map, mem_blankPlaces_iff]
  cases v <;> simp [Violates, Text.isBlankText_iff, TextMap.contains, one_lt_length_filter_iff]

@[simp]
theorem pairwise_require (met : Bool) (v : Violation) (r : Violation → Violation → Prop) :
    (require met v).Pairwise r := by
  cases met <;> simp [require]

/-- Violations are told in the order of their ranks. -/
theorem pairwise_violations (s : MachineSpec) :
    s.violations.Pairwise (fun v w => v.rank < w.rank) := by
  -- All that comes in front of a condition has a lower first number, and the places of one
  -- condition ascend.
  simp [violations, List.pairwise_append, List.pairwise_map, mem_require_iff, pairwise_blankPlaces,
    or_imp, forall_and, Violation.rank, Prod.Lex.toLex_lt_toLex]

/-- No violation is told twice. -/
theorem nodup_violations (s : MachineSpec) : s.violations.Nodup := by
  refine (pairwise_violations s).imp fun {v w} hlt => ?_
  rintro rfl
  exact lt_irrefl _ hlt

/-- A specification is valid if it has no violations. -/
theorem valid_iff {s : MachineSpec} : s.Valid ↔ ∀ v, ¬s.Violates v := by
  have hdefaults : s.networks.countP NetworkSpec.default ≤ 1 ↔ ¬s.Violates .severalDefaults := by
    rw [List.countP_eq_length_filter, ← not_lt, one_lt_length_filter_iff]
    rfl
  constructor
  · rintro h v
    cases v with
    | noSource => exact h.source
    | noStorageClass => exact h.storageClass
    | noSize => exact h.size
    | noMemoryRequest =>
        obtain ⟨amount, hamount⟩ := h.memory
        simp [Violates, hamount]
    | blankKey i =>
        rintro ⟨key, hkey, hblank⟩
        exact h.keys key (List.mem_of_getElem? hkey) hblank
    | blankNetwork i =>
        rintro ⟨network, hnetwork, hblank⟩
        exact h.networks network (List.mem_of_getElem? hnetwork) hblank
    | severalDefaults => exact hdefaults.mp h.default
  · intro h
    refine ⟨h .noSource, h .noStorageClass, h .noSize,
      Option.ne_none_iff_exists'.mp (h .noMemoryRequest), fun key hkey hblank => ?_,
      fun network hnetwork hblank => ?_, hdefaults.mpr (h .severalDefaults)⟩
    · obtain ⟨i, hi⟩ := List.mem_iff_getElem?.mp hkey
      exact h (.blankKey i) ⟨key, hi, hblank⟩
    · obtain ⟨i, hi⟩ := List.mem_iff_getElem?.mp hnetwork
      exact h (.blankNetwork i) ⟨network, hi, hblank⟩

/-- The same conditions are violated at the same places exactly when the violations that are found
    are the same, one by one. -/
theorem violations_eq_iff {s t : MachineSpec} :
    s.violations = t.violations ↔ ∀ v, s.Violates v ↔ t.Violates v := by
  simp only [← mem_violations_iff]
  refine ⟨fun h v => by rw [h], fun h => ?_⟩
  have hperm : s.violations.Perm t.violations :=
    (List.perm_ext_iff_of_nodup (nodup_violations s) (nodup_violations t)).mpr h
  exact hperm.eq_of_pairwise (fun v w _ _ hlt hgt => absurd hlt hgt.asymm)
    (pairwise_violations s) (pairwise_violations t)

/-! ## Reports -/

theorem validate_eq_ok_iff {s : MachineSpec} : s.validate = .ok () ↔ s.violations = [] := by
  rw [validate]
  split
  · rename_i h
    exact iff_of_true rfl h
  · rename_i h
    exact iff_of_false nofun h

theorem validate_eq_error_iff {s : MachineSpec} {e : DriverError} :
    s.validate = .error e ↔ s.violations ≠ []
      ∧ e = .invalidSpec ("; ".intercalate (s.violations.map Violation.message)) := by
  rw [validate]
  split
  · rename_i h
    simp [h]
  · rename_i h
    exact ⟨fun heq => ⟨h, (Except.error.inj heq).symm⟩, fun hv => congrArg _ hv.2.symm⟩

/-- What is told of some violations is taken apart into their messages. -/
theorem splitPair_report {vs : List Violation} (hne : vs ≠ []) :
    Text.splitPair ';' ' ' ("; ".intercalate (vs.map Violation.message)).toList
      = vs.map fun v => v.message.toList := by
  rw [String.toList_intercalate, List.map_map]
  refine Text.splitPair_intercalate (by simpa using hne) fun part hpart => ?_
  obtain ⟨v, -, rfl⟩ := List.mem_map.mp hpart
  exact v.semicolon_notMem_message

/-- Two reports are the same exactly when they tell the same. -/
theorem report_inj {vs ws : List Violation} (hvs : vs ≠ []) (hws : ws ≠ [])
    (h : "; ".intercalate (vs.map Violation.message)
      = "; ".intercalate (ws.map Violation.message)) : vs = ws := by
  have hsame : vs.map (fun v => v.message.toList) = ws.map (fun v => v.message.toList) := by
    rw [← splitPair_report hvs, h, splitPair_report hws]
  refine List.map_injective_iff.mpr (fun v w hvw => ?_) hsame
  exact Violation.message_injective (String.toList_inj.mp hvw)

theorem validate_eq_iff {s t : MachineSpec} :
    s.validate = t.validate ↔ s.violations = t.violations := by
  constructor
  · intro h
    by_cases hvalid : s.violations = []
    · rw [hvalid]
      rw [validate_eq_ok_iff.mpr hvalid] at h
      exact (validate_eq_ok_iff.mp h.symm).symm
    · have herror := validate_eq_error_iff.mpr ⟨hvalid, rfl⟩
      rw [h] at herror
      obtain ⟨hne, heq⟩ := validate_eq_error_iff.mp herror
      exact report_inj hvalid hne (DriverError.invalidSpec.inj heq)
  · intro h
    rw [validate, validate, h]

/-- **A report tells exactly the violations.** A specification is accepted exactly when it is valid.
    Any other is rejected by a text of the messages of its violations, all of them and each once, in
    the order of their ranks; the messages, and so the violations, are found again by splitting
    the text. Two specifications get the same answer exactly when they violate the same conditions
    at the same places. -/
theorem validate_reports_violations (s : MachineSpec) :
    (s.validate = .ok () ↔ s.Valid)
    ∧ (∀ e, s.validate = .error e → ∃ (vs : List Violation) (reason : String),
      e = .invalidSpec reason
      ∧ reason = "; ".intercalate (vs.map Violation.message)
      ∧ vs.Pairwise (fun v w => v.rank < w.rank)
      ∧ (∀ v, v ∈ vs ↔ s.Violates v)
      ∧ Text.splitPair ';' ' ' reason.toList = vs.map (fun v => v.message.toList)
      ∧ ∀ v, v.message.toList ∈ Text.splitPair ';' ' ' reason.toList ↔ s.Violates v)
    ∧ ∀ t : MachineSpec, s.validate = t.validate ↔ ∀ v, s.Violates v ↔ t.Violates v := by
  refine ⟨?_, fun e he => ?_, fun t => validate_eq_iff.trans violations_eq_iff⟩
  · rw [validate_eq_ok_iff, valid_iff, List.eq_nil_iff_forall_not_mem]
    simp only [mem_violations_iff]
  · obtain ⟨hne, rfl⟩ := validate_eq_error_iff.mp he
    refine ⟨s.violations, _, rfl, rfl, pairwise_violations s, fun v => mem_violations_iff,
      splitPair_report hne, fun v => ?_⟩
    rw [splitPair_report hne, ← mem_violations_iff]
    exact List.mem_map_of_injective fun v w hvw =>
      Violation.message_injective (String.toList_inj.mp hvw)

/-- Of two keys the second of which is blank only the second is told, next to what else is
    missing. -/
theorem validate_reports_second_key :
    ∃ reason, MachineSpec.validate { sshKeys := ["ssh-ed25519 AAAA", " \t"] }
        = .error (.invalidSpec reason)
      ∧ "pvcSize is required".toList ∈ Text.splitPair ';' ' ' reason.toList
      ∧ "sshKeys[1] is empty".toList ∈ Text.splitPair ';' ' ' reason.toList
      ∧ "sshKeys[0] is empty".toList ∉ Text.splitPair ';' ' ' reason.toList := by
  obtain ⟨-, hreports, -⟩ :=
    validate_reports_violations { sshKeys := ["ssh-ed25519 AAAA", " \t"] }
  obtain ⟨-, reason, hreason, -, -, -, -, hmessages⟩ := hreports _ rfl
  refine ⟨reason, congrArg _ hreason, (hmessages .noSize).mpr rfl,
    (hmessages (.blankKey 1)).mpr ⟨" \t", rfl, rfl⟩, fun hfirst => ?_⟩
  obtain ⟨key, hkey, hblank⟩ := (hmessages (.blankKey 0)).mp hfirst
  cases hkey
  exact absurd hblank (by decide)

end MachineSpec

end MachineDriver
