import MachineDriver.Proofs.AddressText
import MachineDriver.Proofs.UsableToken

set_option autoImplicit false

/-!
# What a configuration takes from the environment

`Config.Variable.Means` says what a text of a variable means for a configuration, without a word
about how it is read, and `Config.ofEnvironment_eq_ok_iff` that the configuration that is loaded has
what all texts of the environment mean.

Variables hold bytes, however, and not all bytes are those of a text. Bytes that are not count as
nothing at all, so `Config.isReflected_iff_isLegible` finds that the variables which a configuration
reflects are those that can be read as texts. -/

namespace MachineDriver

open Text

/-! ## Variables as texts -/

namespace Environment

/-- A variable can be read: if it is set at all, it holds the bytes of a text. -/
def IsLegible (env : Environment) (name : String) : Prop :=
  ∀ bytes, env.get? name = some bytes → ∃ s, bytes = Utf8.encode s

variable {env : Environment} {name s : String}

theorem text?_eq_some_iff : env.text? name = some s ↔ env.get? name = some (Utf8.encode s) := by
  rw [text?]
  split
  · rename_i hnone
    simp [hnone]
  · rename_i bytes hbytes
    rw [hbytes, Option.some_inj, ← Utf8.decode_eq_ok_iff]
    split
    · rename_i hdecode
      simp [hdecode]
    · rename_i hdecode
      simp [hdecode]

theorem isLegible_of_get? (h : env.get? name = some (Utf8.encode s)) : env.IsLegible name := by
  intro bytes hbytes
  rw [h] at hbytes
  cases hbytes
  exact ⟨s, rfl⟩

theorem text?_of_not_isLegible (h : ¬env.IsLegible name) : env.text? name = none := by
  rw [Option.eq_none_iff_forall_ne_some]
  intro s hs
  refine h fun bytes hbytes => ⟨s, ?_⟩
  rw [text?_eq_some_iff.mp hs] at hbytes
  exact (Option.some_inj.mp hbytes).symm

theorem text?_erase (erased : String) :
    text? (env.erase erased) name = if name = erased then none else env.text? name := by
  rw [text?, text?, TextMap.get?_erase]
  by_cases hname : name = erased
  · rw [if_pos hname, if_pos hname]
  · rw [if_neg hname, if_neg hname]

/-- A variable that cannot be read might as well not be set. -/
theorem text?_erase_of_not_isLegible {erased : String} (h : ¬env.IsLegible erased) :
    text? (env.erase erased) name = env.text? name := by
  rw [text?_erase]
  split
  · rename_i hname
    rw [hname, text?_of_not_isLegible h]
  · rfl

end Environment

/-! ## What variables mean -/

namespace Config

/-- The variables that a configuration depends on. -/
inductive Variable where
  | listenAddress
  | apiToken
  | shutdownAttempts
  deriving DecidableEq, Repr

namespace Variable

/-- The name of a variable. -/
def name : Variable → String
  | listenAddress => "LISTEN_ADDR"
  | apiToken => "DRIVER_API_TOKEN"
  | shutdownAttempts => "SHUTDOWN_RETRY_ATTEMPTS"

/-- A configuration has what a text of a variable means: the address that it denotes, the token that
    it is itself unless it is empty, or the positive number that it is a numeral of. -/
def Means : Variable → String → Config → Prop
  | listenAddress, s, c => SocketAddress.Denotes s c.listenAddress
  | apiToken, s, c => c.apiToken = if s = "" then none else some s
  | shutdownAttempts, s, c => ∃ n, c.shutdownAttempts = some n ∧ IsUnsigned s n.toNat ∧ 0 < n

/-- A configuration has what it has when nothing is said by a variable. -/
def IsUnset : Variable → Config → Prop
  | listenAddress, c => c.listenAddress = defaultAddress
  | apiToken, c => c.apiToken = none
  | shutdownAttempts, c => c.shutdownAttempts = none

/-- A configuration has what is said by a variable, if anything is. -/
def Agrees (v : Variable) (env : Environment) (c : Config) : Prop :=
  (∀ s, env.text? v.name = some s → v.Means s c) ∧ (env.text? v.name = none → v.IsUnset c)

/-- A variable that is set to something is reflected in a configuration: it holds a text, and the
    configuration has what this means. -/
def IsReflected (v : Variable) (env : Environment) (c : Config) : Prop :=
  ∀ bytes, env.get? v.name = some bytes → bytes ≠ [] →
    ∃ s, bytes = Utf8.encode s ∧ v.Means s c

end Variable

variable {c : Config} {env env' : Environment}

/-! ## Loading -/

theorem readAddress_eq_ok_iff :
    readAddress env = .ok c.listenAddress ↔ Variable.listenAddress.Agrees env c := by
  simp only [readAddress, Variable.Agrees, Variable.name, Variable.Means, Variable.IsUnset,
    ← SocketAddress.ofText?_eq_some_iff]
  split
  · rename_i hnone
    simp [hnone, eq_comm]
  · rename_i s hs
    split
    · rename_i address haddress
      simp [hs, haddress]
    · rename_i haddress
      simp [hs, haddress]

theorem readToken_eq_iff : readToken env = c.apiToken ↔ Variable.apiToken.Agrees env c := by
  simp only [readToken, Variable.Agrees, Variable.name, Variable.Means, Variable.IsUnset]
  split
  · rename_i hempty
    simp [hempty, eq_comm]
  · rename_i hempty
    cases htext : env.text? "DRIVER_API_TOKEN" with
    | none => simp [eq_comm]
    | some s =>
        have hne : s ≠ "" := fun hs => hempty (hs ▸ htext)
        simp [hne, eq_comm]

theorem Variable.means_shutdownAttempts_iff {s : String} : shutdownAttempts.Means s c
    ↔ ∃ n, readUnsigned? 4294967296 s = some n ∧ n ≠ 0
      ∧ c.shutdownAttempts = some (UInt32.ofNat n) := by
  simp only [readUnsigned?_eq_some_iff]
  constructor
  · rintro ⟨n, hn, hnumeral, hpos⟩
    have hne : n.toNat ≠ 0 := Nat.ne_of_gt (UInt32.lt_iff_toNat_lt.mp hpos)
    exact ⟨n.toNat, ⟨hnumeral, n.toNat_lt⟩, hne, by rw [hn, UInt32.ofNat_toNat]⟩
  · rintro ⟨n, ⟨hnumeral, hlt⟩, hne, hn⟩
    have htoNat : (UInt32.ofNat n).toNat = n := UInt32.toNat_ofNat_of_lt hlt
    refine ⟨UInt32.ofNat n, hn, htoNat.symm ▸ hnumeral, UInt32.lt_iff_toNat_lt.mpr ?_⟩
    rw [htoNat]
    exact Nat.pos_of_ne_zero hne

theorem readAttempts_eq_ok_iff :
    readAttempts env = .ok c.shutdownAttempts ↔ Variable.shutdownAttempts.Agrees env c := by
  simp only [readAttempts, Variable.Agrees, Variable.name, Variable.means_shutdownAttempts_iff,
    Variable.IsUnset]
  split
  · rename_i hnone
    simp [hnone, eq_comm]
  · rename_i s hs
    split
    · rename_i hzero
      simp [hs, hzero]
    · rename_i n hpos hn
      have hne : n ≠ 0 := hpos
      simp [hs, hn, hne, eq_comm]
    · rename_i hbad
      simp [hs, hbad]

/-- The configuration that is loaded has what is said by all variables. -/
theorem ofEnvironment_eq_ok_iff :
    ofEnvironment env = .ok c ↔ ∀ v : Variable, v.Agrees env c := by
  have hall : (∀ v : Variable, v.Agrees env c) ↔ readAddress env = .ok c.listenAddress
      ∧ readToken env = c.apiToken ∧ readAttempts env = .ok c.shutdownAttempts := by
    rw [readAddress_eq_ok_iff, readToken_eq_iff, readAttempts_eq_ok_iff]
    constructor
    · exact fun h => ⟨h .listenAddress, h .apiToken, h .shutdownAttempts⟩
    · rintro ⟨haddress, htoken, hattempts⟩ (_ | _ | _)
      · exact haddress
      · exact htoken
      · exact hattempts
  obtain ⟨address, token, attempts⟩ := c
  rw [hall, ofEnvironment]
  cases haddress : readAddress env with
  | error e => simp
  | ok found =>
      cases hattempts : readAttempts env with
      | error e => simp
      | ok count => simp

/-- Only what can be read of the variables matters. -/
theorem ofEnvironment_congr (h : ∀ v : Variable, env.text? v.name = env'.text? v.name) :
    ofEnvironment env = ofEnvironment env' := by
  have haddress := h .listenAddress
  have htoken := h .apiToken
  have hattempts := h .shutdownAttempts
  simp only [Variable.name] at haddress htoken hattempts
  rw [ofEnvironment, ofEnvironment, readAddress, readAddress, readAttempts, readAttempts, readToken,
    readToken, haddress, htoken, hattempts]

/-- If a configuration can have what a variable says, one agrees with the variable, as one does
    where nothing is said. -/
theorem Variable.exists_agrees {v : Variable}
    (h : ∀ s, env.text? v.name = some s → ∃ c, v.Means s c) : ∃ c, v.Agrees env c := by
  cases htext : env.text? v.name with
  | none =>
      refine ⟨⟨defaultAddress, none, none⟩, fun s hs => ?_, fun _ => ?_⟩
      · rw [htext] at hs
        cases hs
      · cases v <;> rfl
  | some s =>
      obtain ⟨c, hc⟩ := h s htext
      refine ⟨c, fun t ht => ?_, fun hnone => ?_⟩
      · rw [htext] at ht
        cases ht
        exact hc
      · rw [htext] at hnone
        cases hnone

/-- Loading fails exactly if some variable says what no configuration could have. -/
theorem ofEnvironment_eq_error_iff : (∃ e, ofEnvironment env = .error e)
    ↔ ∃ (v : Variable) (s : String), env.text? v.name = some s ∧ ∀ c, ¬v.Means s c := by
  constructor
  · rintro ⟨e, he⟩
    by_contra hno
    push Not at hno
    obtain ⟨c₁, haddress⟩ := Variable.exists_agrees (hno .listenAddress)
    obtain ⟨c₂, htoken⟩ := Variable.exists_agrees (hno .apiToken)
    obtain ⟨c₃, hattempts⟩ := Variable.exists_agrees (hno .shutdownAttempts)
    have hload : ofEnvironment env = .ok ⟨c₁.listenAddress, c₂.apiToken, c₃.shutdownAttempts⟩ := by
      rw [ofEnvironment_eq_ok_iff]
      rintro (_ | _ | _)
      · exact haddress
      · exact htoken
      · exact hattempts
    rw [hload] at he
    cases he
  · rintro ⟨v, s, hs, hnone⟩
    cases hload : ofEnvironment env with
    | error e => exact ⟨e, rfl⟩
    | ok c => exact absurd ((ofEnvironment_eq_ok_iff.mp hload v).1 s hs) (hnone c)

/-! ## What is reflected -/

/-- A variable is reflected in the configuration that is loaded if it can be read, and otherwise it
    is not. -/
theorem Variable.isReflected_iff {v : Variable} (hload : ofEnvironment env = .ok c) :
    v.IsReflected env c ↔ env.IsLegible v.name := by
  have hagrees := ofEnvironment_eq_ok_iff.mp hload v
  constructor
  · intro hreflected bytes hbytes
    by_cases hempty : bytes = []
    · exact ⟨"", hempty⟩
    · obtain ⟨s, hs, -⟩ := hreflected bytes hbytes hempty
      exact ⟨s, hs⟩
  · intro hlegible bytes hbytes _
    obtain ⟨s, rfl⟩ := hlegible bytes hbytes
    exact ⟨s, rfl, hagrees.1 s (Environment.text?_eq_some_iff.mpr hbytes)⟩

theorem apiToken_eq_none_iff (hload : ofEnvironment env = .ok c) : c.apiToken = none
    ↔ ∀ s, env.get? Variable.apiToken.name = some (Utf8.encode s) → s = "" := by
  rw [apiToken_of_ofEnvironment hload, Option.eq_none_iff_forall_ne_some]
  simp only [ne_eq, readToken_eq_some_iff, Environment.text?_eq_some_iff, not_and, not_not]
  exact Iff.rfl

/-- **Variables are reflected exactly if they can be read.** In the configuration that is loaded, a
    variable that is set to something is reflected exactly if its bytes are those of a text, and
    the token is missing exactly if no text but the empty one is set for it. Loading fails exactly
    if a variable holds a text that means nothing. A variable whose bytes are no text fails nothing:
    it is the same to set it or not. -/
theorem isReflected_iff_isLegible (env : Environment) :
    (∀ c, ofEnvironment env = .ok c →
      (∀ v : Variable, v.IsReflected env c ↔ env.IsLegible v.name)
      ∧ (c.apiToken = none
        ↔ ∀ s, env.get? Variable.apiToken.name = some (Utf8.encode s) → s = ""))
    ∧ ((∃ e, ofEnvironment env = .error e)
      ↔ ∃ (v : Variable) (s : String),
        env.get? v.name = some (Utf8.encode s) ∧ ∀ c, ¬v.Means s c)
    ∧ ∀ v : Variable, ¬env.IsLegible v.name →
      ofEnvironment env = ofEnvironment (env.erase v.name) := by
  refine ⟨fun c hload => ⟨fun v => Variable.isReflected_iff hload, apiToken_eq_none_iff hload⟩, ?_,
    fun v hv => ofEnvironment_congr fun w => ?_⟩
  · simp only [ofEnvironment_eq_error_iff, Environment.text?_eq_some_iff]
  · exact (Environment.text?_erase_of_not_isLegible hv).symm

/-- Three variables that are set to texts are all reflected. -/
theorem isReflected_of_three_texts :
    ∃ env : Environment,
      env.get? "LISTEN_ADDR" = some (Utf8.encode "[::1%7]:080")
      ∧ env.get? "DRIVER_API_TOKEN" = some (Utf8.encode "clé")
      ∧ env.get? "SHUTDOWN_RETRY_ATTEMPTS" = some (Utf8.encode "+006")
      ∧ ofEnvironment env = .ok ⟨.v6 ⟨#[0, 0, 0, 0, 0, 0, 0, 1], rfl⟩ 7 80, some "clé", some 6⟩
      ∧ ∀ v : Variable, v.IsReflected env
        ⟨.v6 ⟨#[0, 0, 0, 0, 0, 0, 0, 1], rfl⟩ 7 80, some "clé", some 6⟩ := by
  let env : Environment := .ofList
    [("LISTEN_ADDR", Utf8.encode "[::1%7]:080"), ("DRIVER_API_TOKEN", Utf8.encode "clé"),
      ("SHUTDOWN_RETRY_ATTEMPTS", Utf8.encode "+006")]
  have haddress : env.get? "LISTEN_ADDR" = some (Utf8.encode "[::1%7]:080") := by decide +kernel
  have htoken : env.get? "DRIVER_API_TOKEN" = some (Utf8.encode "clé") := by decide +kernel
  have hattempts : env.get? "SHUTDOWN_RETRY_ATTEMPTS" = some (Utf8.encode "+006") := by
    decide +kernel
  have hload : ofEnvironment env
      = .ok ⟨.v6 ⟨#[0, 0, 0, 0, 0, 0, 0, 1], rfl⟩ 7 80, some "clé", some 6⟩ := by decide +kernel
  refine ⟨env, haddress, htoken, hattempts, hload, fun v => ?_⟩
  rw [((isReflected_iff_isLegible env).1 _ hload).1 v]
  cases v with
  | listenAddress => exact Environment.isLegible_of_get? haddress
  | apiToken => exact Environment.isLegible_of_get? htoken
  | shutdownAttempts => exact Environment.isLegible_of_get? hattempts

/-- With a token in an encoding that is not UTF-8 a configuration is loaded in which there is no
    token, and every request is admitted. -/
theorem token_in_latin_is_lost :
    ∃ (env : Environment) (c : Config),
      env.get? "DRIVER_API_TOKEN" = some [0x63, 0x6C, 0xE9]
      ∧ ofEnvironment env = .ok c ∧ c.apiToken = none
      ∧ ¬Variable.apiToken.IsReflected env c ∧ ∀ r : Request, c.admits r = true := by
  let env : Environment := .ofList [("DRIVER_API_TOKEN", [0x63, 0x6C, 0xE9])]
  have htoken : env.get? "DRIVER_API_TOKEN" = some [0x63, 0x6C, 0xE9] := rfl
  refine ⟨env, ⟨defaultAddress, none, none⟩, htoken, rfl, rfl, fun hreflected => ?_, fun r => rfl⟩
  obtain ⟨s, hs, -⟩ := hreflected _ htoken (List.cons_ne_nil _ _)
  have hdecode := Utf8.decode_eq_ok_iff.mpr hs
  cases hdecode

end Config

end MachineDriver
