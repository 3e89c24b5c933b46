import MachineDriver.Proofs.Pairing

set_option autoImplicit false

/-!
# Names that are made of names

The identifier of a machine and the name of its secret are made of the name of the machine, which is
any text: it may repeat the scheme of identifiers, and it may have hyphens and digits. Both tell
what they were made of all the same. An identifier has a scheme of a fixed length in front, and in
the name of a secret the last hyphen is that in front of the time.

`ProviderId.decode_eq_ok_iff` and `userDataSecretName_eq_iff` say so for the two names, and
`secretNames_of_runs_createMachine` that a creation uses no other name for a secret. -/

namespace MachineDriver

/-! ## Identifiers -/

namespace ProviderId

variable {id name : String}

theorem eq_encode_of_decode (h : decode id = .ok name) : name ≠ "" ∧ id = encode name := by
  rw [decode] at h
  split at h
  · rename_i c cs hafter
    cases h
    constructor
    · intro hempty
      have hchars : c :: cs = [] := by
        rw [← String.toList_ofList (l := c :: cs), hempty]
        rfl
      cases hchars
    · rw [encode, String.toList_ofList, ← eq_append_of_after? hafter, String.ofList_toList]
  · cases h

/-- An identifier is read as a name exactly if it was made of this name. -/
theorem decode_eq_ok_iff : decode id = .ok name ↔ name ≠ "" ∧ id = encode name := by
  constructor
  · exact eq_encode_of_decode
  · rintro ⟨hname, rfl⟩
    exact decode_encode hname

/-- What is refused is named in the refusal. -/
theorem eq_of_decode_eq_error {error : DriverError} (h : decode id = .error error) :
    error = .invalidProviderId id := by
  rw [decode] at h
  split at h
  · cases h
  · cases h
    rfl

theorem decode_eq_error_iff {error : DriverError} :
    decode id = .error error
      ↔ error = .invalidProviderId id ∧ ¬∃ name, name ≠ "" ∧ id = encode name := by
  constructor
  · intro h
    refine ⟨eq_of_decode_eq_error h, ?_⟩
    rintro ⟨name, hname⟩
    rw [decode_eq_ok_iff.mpr hname] at h
    cases h
  · rintro ⟨rfl, hnone⟩
    cases h : decode id with
    | ok name => exact absurd ⟨name, decode_eq_ok_iff.mp h⟩ hnone
    | error error => rw [eq_of_decode_eq_error h]

/-- **Names and identifiers are in bijection.** Every name that is not empty, whatever characters it
    has, is read back from its identifier, which is the name behind the scheme. What is read from a
    text is the one name whose identifier the text is, and a text that is no identifier is refused
    by an error that shows it unchanged. So different names have different identifiers, and to make
    an identifier of what was read from one gives this one again. -/
theorem decode_inverts_encode :
    (∀ name, encode name = "kubevirt://" ++ name)
      ∧ (∀ name, name ≠ "" → decode (encode name) = .ok name)
      ∧ (∀ id name, decode id = .ok name ↔ name ≠ "" ∧ id = encode name)
      ∧ (∀ id error, decode id = .error error
        ↔ error = .invalidProviderId id ∧ ¬∃ name, name ≠ "" ∧ id = encode name)
      ∧ Function.Injective encode
      ∧ ∀ id name, decode id = .ok name → encode name = id := by
  refine ⟨fun name => ?_, fun _ => decode_encode, fun _ _ => decode_eq_ok_iff,
    fun _ _ => decode_eq_error_iff, fun _ _ => encode_inj, fun id name h => ?_⟩
  · have hscheme : String.ofList scheme = "kubevirt://" := rfl
    rw [encode, String.ofList_append, hscheme, String.ofList_toList]
  · exact (decode_eq_ok_iff.mp h).2.symm

/-- A name that repeats the scheme is read back, and the scheme alone is no identifier. -/
theorem decode_inverts_encode_of_scheme :
    decode "kubevirt://kubevirt://a/b" = .ok "kubevirt://a/b"
      ∧ encode "kubevirt://a/b" = "kubevirt://kubevirt://a/b"
      ∧ decode "kubevirt://" = .error (.invalidProviderId "kubevirt://") := by
  obtain ⟨hscheme, hread, -, hrefused, -, hback⟩ := decode_inverts_encode
  have hid : encode "kubevirt://a/b" = "kubevirt://kubevirt://a/b" := hscheme _
  have hname : decode "kubevirt://kubevirt://a/b" = .ok "kubevirt://a/b" := by
    rw [← hid]
    exact hread _ (by decide)
  refine ⟨hname, hback _ _ hname, (hrefused _ _).mpr ⟨rfl, ?_⟩⟩
  rintro ⟨name, hne, hname⟩
  rw [hscheme] at hname
  exact hne (by simpa using hname.symm)

end ProviderId

/-! ## Secrets -/

/-- The name of a secret tells the name of its machine and the time. -/
theorem userDataSecretName_eq_iff {name name' : String} {seconds seconds' : Nat} :
    userDataSecretName name seconds = userDataSecretName name' seconds'
      ↔ name = name' ∧ seconds = seconds' := by
  constructor
  · intro h
    obtain rfl := name_eq_of_userDataSecretName_eq h
    have hdigits : String.ofList (Text.decimal seconds) = String.ofList (Text.decimal seconds') :=
      (String.append_right_inj _).mp h
    exact ⟨rfl, Text.decimal_inj (String.ofList_injective hdigits)⟩
  · rintro ⟨rfl, rfl⟩
    rfl

/-- The names of secrets in a call: of the secret that is created, and of those that a new machine
    reads at its first start. -/
def Call.secretNames : Call → List String
  | .createVirtualMachine vm => vm.settingsSecrets
  | .createSecret s => s.metadata.name.toList
  | _ => []

theorem Call.secretNames_of_not_isMutating {c : Call} (h : c.isMutating = false) :
    c.secretNames = [] := by
  cases c <;> first | rfl | cases h

/-- The time that a call was answered with. -/
def Event.time? : Event → Option Nat
  | ⟨.now, seconds⟩ => some seconds
  | _ => none

theorem Event.time?_eq_none {e : Event} (h : e.call ≠ .now) : e.time? = none := by
  obtain ⟨call, answer⟩ := e
  cases call <;> first | rfl | exact absurd rfl h

open Program

namespace Plan

theorem findBootSource_asks_no_time (ns sourceUrl : String) (machineClass : Option String) :
    (findBootSource ns sourceUrl machineClass).MakesOnly fun c => c ≠ .now := by
  unfold findBootSource
  split
  · exact .pure _
  · exact .pure _
  · refine .bind (.call nofun) fun answer => ?_
    split <;> exact .pure _

theorem commit_asks_no_time (p : Plan) : p.commit.MakesOnly fun c => c ≠ .now := by
  unfold commit
  refine .bind (.call nofun) fun machine => ?_
  split
  · exact .pure _
  · refine .bind (.call nofun) fun secret => ?_
    split <;> exact .pure _

/-- A commitment uses the name of its plan only. -/
theorem commit_names (p : Plan) :
    p.commit.MakesOnly fun c => ∀ n ∈ c.secretNames, n = p.secretName := by
  unfold commit
  refine .bind (.call fun n hn => List.mem_singleton.mp hn) fun machine => ?_
  split
  · exact .pure _
  · refine .bind (.call fun n hn => List.mem_singleton.mp hn) fun secret => ?_
    split <;> exact .pure _

end Plan

/-- A creation that gives a name to a secret reads the time once and uses the name of this time
    only. -/
theorem secretNames_of_runs_createMachine {name : String} {spec : MachineSpec}
    {credentials : Credentials} {events : List Event} {outcome : Outcome String}
    (h : (createMachine name spec credentials).Runs events outcome) {e : Event} (he : e ∈ events)
    {secretName : String} (hname : secretName ∈ e.call.secretNames) :
    ∃ seconds, events.filterMap Event.time? = [seconds]
      ∧ secretName = userDataSecretName name seconds := by
  rcases cases_of_runs_createMachine h with ⟨error, rfl, hprepare⟩
    | ⟨plan, preparation, writes, rfl, settled, hcommit⟩
  · have hreads := hprepare.sort_of_mem (Plan.prepare_reads name spec credentials) e he
    rw [Call.secretNames_of_not_isMutating hreads] at hname
    cases hname
  · obtain ⟨(seconds : Nat), version, lookup, hcalls, hsecret, -, hlookup⟩ := settled.calls
    refine ⟨seconds, ?_, ?_⟩
    · have hlookup' : lookup.filterMap Event.time? = [] := List.filterMap_eq_nil_iff.mpr
        fun e he => Event.time?_eq_none
          (hlookup.sort_of_mem (Plan.findBootSource_asks_no_time _ _ _) e he)
      have hwrites : writes.filterMap Event.time? = [] := List.filterMap_eq_nil_iff.mpr
        fun e he => Event.time?_eq_none (hcommit.sort_of_mem plan.commit_asks_no_time e he)
      calc (preparation ++ writes).filterMap Event.time?
          = preparation.filterMap Event.time? := by
            rw [List.filterMap_append, hwrites, List.append_nil]
        _ = seconds :: lookup.filterMap Event.time? := by
            rw [hcalls]
            rfl
        _ = [seconds] := by rw [hlookup']
    · rcases List.mem_append.mp he with he | he
      · rw [Call.secretNames_of_not_isMutating (settled.reads e he)] at hname
        cases hname
      · rw [hcommit.sort_of_mem plan.commit_names e he secretName hname, hsecret]

/-- **Names of secrets never collide.** Two names of secrets are equal exactly if they are made of
    the same name of a machine and the same time. A creation reads the time once, and the secret
    that it creates and the machine that it sends have no other name of a secret than that of its
    machine and of this time. -/
theorem secretNames_never_collide :
    (∀ name name' seconds seconds',
        userDataSecretName name seconds = userDataSecretName name' seconds'
          ↔ name = name' ∧ seconds = seconds')
      ∧ ∀ name spec credentials events outcome,
        (createMachine name spec credentials).Runs events outcome →
        ∀ e ∈ events, ∀ secretName ∈ e.call.secretNames, ∃ seconds,
          events.filterMap Event.time? = [seconds]
            ∧ secretName = userDataSecretName name seconds :=
  ⟨fun _ _ _ _ => userDataSecretName_eq_iff, fun _ _ _ _ _ h _ he _ hname =>
    secretNames_of_runs_createMachine h he hname⟩

/-- The calls of a creation at the time 2 whose secret is refused. -/
def refusedEvents : List Event :=
  let plan := Plan.bare "a-1" "vms" 2 ""
  let created := plan.created "uid-1" "1001"
  [⟨.client {}, .ok "vms"⟩, ⟨.now, (2 : Nat)⟩, ⟨.serverVersion {}, .ok "v1.28.2"⟩,
    ⟨.createVirtualMachine plan.virtualMachine, .ok created⟩,
    ⟨.createSecret (plan.secret created), .error (.api "refused")⟩]

/-- A machine `a-1` at the time 2 and a machine `a` at the time 12 have secrets of different
    names. -/
theorem secretNames_never_collide_of_hyphens :
    ∃ outcome, (createMachine "a-1" {} {}).Runs refusedEvents outcome
      ∧ (∀ e ∈ refusedEvents, ∀ secretName ∈ e.call.secretNames,
        secretName = userDataSecretName "a-1" 2)
      ∧ userDataSecretName "a-1" 2 ≠ userDataSecretName "a" 12 := by
  obtain ⟨hnames, hcreations⟩ := secretNames_never_collide
  have hruns : (createMachine "a-1" {} {}).Runs refusedEvents
      (.error (.object .create "Secret" "userdata-a-1-2" (.api "refused"))) :=
    .ask _ (.ask _ (.ask _ (.ask _ (.ask _ (.done _)))))
  refine ⟨_, hruns, fun e he secretName hname => ?_, fun heq => ?_⟩
  · obtain ⟨seconds, htime, rfl⟩ := hcreations _ _ _ _ _ hruns e he secretName hname
    obtain rfl : 2 = seconds := List.head_eq_of_cons_eq htime
    rfl
  · exact absurd ((hnames _ _ _ _).mp heq).2 (by decide)

end MachineDriver
