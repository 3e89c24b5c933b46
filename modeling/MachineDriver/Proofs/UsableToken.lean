import MachineDriver.Proofs.Admission
import MachineDriver.Proofs.Blame
import Mathlib.Data.List.Basic

set_option autoImplicit false

/-!
# Tokens that can be shown

A token is any text that is not empty, and a request shows it by the bytes of this text. Headers are
read as text only where all of their characters can be seen, so `Config.token_usable_iff_isAscii`
finds two kinds of tokens: with an ASCII token a server treats those who show it as one without a
token treats all, and with any other token it turns everyone away. -/

namespace MachineDriver

/-! ## What can be shown -/

/-- A text has ASCII characters only. -/
def Text.IsAscii (s : String) : Prop :=
  ∀ c ∈ s.toList, c.toNat < 0x80

-- The instance is named, as otherwise every character there is might be tried.
instance (s : String) : Decidable (Text.IsAscii s) :=
  List.decidableBAll (fun c : Char => c.toNat < 0x80) s.toList

namespace Request

/-- Bytes that a header may have: all but the control characters, of which only the tab may be
    there. -/
def IsHeaderValue (bytes : List UInt8) : Prop :=
  ∀ byte ∈ bytes, byte = 0x09 ∨ 0x20 ≤ byte ∧ byte ≠ 0x7F

instance (bytes : List UInt8) : Decidable (IsHeaderValue bytes) :=
  List.decidableBAll (fun byte : UInt8 => byte = 0x09 ∨ 0x20 ≤ byte ∧ byte ≠ 0x7F) bytes

/-- A header that is read has ASCII characters only. -/
theorem lt_of_headerText? {r : Request} {name : String} {cs : List Char}
    (h : r.headerText? name = some cs) : ∀ c ∈ cs, c.toNat < 0x80 := by
  obtain ⟨bytes, -, hvisible⟩ := Option.bind_eq_some_iff.mp h
  unfold visibleText? at hvisible
  split at hvisible
  · rename_i hall
    cases hvisible
    intro c hc
    obtain ⟨byte, hbyte, rfl⟩ := List.mem_map.mp hc
    have hlow := lt_of_isVisible (List.all_eq_true.mp hall byte hbyte)
    rwa [Text.Utf8.toNat_ofNat (.inl (by omega))]
  · cases hvisible

/-- An ASCII text that a header may have is read from it. -/
theorem visibleText?_encodeChars {cs : List Char} (hascii : ∀ c ∈ cs, c.toNat < 0x80)
    (hlegal : IsHeaderValue (Text.Utf8.encodeChars cs)) :
    visibleText? (Text.Utf8.encodeChars cs) = some cs := by
  have hbytes : Text.Utf8.encodeChars cs = cs.map fun c => UInt8.ofNat c.toNat := by
    rw [Text.Utf8.encodeChars, List.map_eq_flatMap]
    exact List.flatMap_congr fun c hc => Text.Utf8.encode_one (hascii c hc)
  have hbyte : ∀ c ∈ cs, (UInt8.ofNat c.toNat).toNat = c.toNat := fun c hc =>
    Text.Utf8.toNat_byte (Nat.lt_trans (hascii c hc) (by decide))
  rw [hbytes] at hlegal ⊢
  rw [visibleText?, if_pos]
  · rw [List.map_map]
    refine congrArg some ((List.map_congr_left fun c hc => ?_).trans (List.map_id cs))
    rw [Function.comp_apply, hbyte c hc, Char.ofNat_toNat, id_eq]
  · rw [List.all_eq_true]
    intro byte hmem
    obtain ⟨c, hc, rfl⟩ := List.mem_map.mp hmem
    have hlow := hascii c hc
    rw [← hbyte c hc] at hlow
    rcases hlegal _ hmem with htab | ⟨hhigh, hdelete⟩
    · simp [isVisible, htab]
    · rw [ne_eq, ← UInt8.toNat_inj] at hdelete
      have hlast : (0x7F : UInt8).toNat = 0x7F := rfl
      simp only [isVisible, Bool.or_eq_true, Bool.and_eq_true, decide_eq_true_eq,
        UInt8.lt_iff_toNat_lt]
      exact .inr ⟨hhigh, by omega⟩

end Request

/-! ## The guard -/

namespace Config

variable {c : Config} {r : Request} {token : String}

/-- A token of which some character is not ASCII is shown by no request at all. -/
theorem admits_of_not_isAscii (htoken : c.apiToken = some token) (h : ¬Text.IsAscii token) :
    c.admits r = false := by
  rw [admits, htoken, Bool.eq_false_iff]
  intro hadmits
  refine h fun ch hch => Request.lt_of_headerText? (beq_iff_eq.mp hadmits) ch ?_
  exact List.mem_append_right _ hch

/-- An ASCII token is shown by the bytes of its text. -/
theorem admits_of_isAscii (htoken : c.apiToken = some token) (h : Text.IsAscii token)
    (hlegal : Request.IsHeaderValue (Text.Utf8.encode ("Bearer " ++ token)))
    (hheader : r.header? "authorization" = some (Text.Utf8.encode ("Bearer " ++ token))) :
    c.admits r = true := by
  rw [Text.Utf8.encode, String.toList_append] at hlegal hheader
  have hascii : ∀ ch ∈ "Bearer ".toList ++ token.toList, ch.toNat < 0x80 := by
    intro ch hch
    rcases List.mem_append.mp hch with hch | hch
    · exact (by decide : Text.IsAscii "Bearer ") ch hch
    · exact h ch hch
  rw [admits, htoken]
  refine beq_iff_eq.mpr ?_
  rw [Request.headerText?, hheader]
  exact Request.visibleText?_encodeChars hascii hlegal

theorem readToken_eq_some_iff {env : Environment} :
    readToken env = some token ↔ env.text? "DRIVER_API_TOKEN" = some token ∧ token ≠ "" := by
  rw [readToken]
  split
  · rename_i h
    simp [h, eq_comm]
  · rename_i h
    constructor
    · intro htoken
      exact ⟨htoken, fun hempty => h (hempty ▸ htoken)⟩
    · exact And.left

theorem apiToken_of_ofEnvironment {env : Environment} (h : ofEnvironment env = .ok c) :
    c.apiToken = readToken env := by
  rw [ofEnvironment] at h
  split at h
  · cases h
  · split at h
    · cases h
    · cases h
      rfl

end Config

/-! ## Other refusals -/

/-- Whatever a request is refused with, it is not refused for want of a token. -/
def Command.Spares {α : Type} (x : Except Response α) : Prop :=
  ∀ response, x = .error response → response.status ≠ .unauthorized

namespace Command

theorem Spares.ok {α : Type} (v : α) : Spares (.ok v : Except Response α) :=
  nofun

theorem Spares.error {α : Type} {response : Response} (h : response.status ≠ .unauthorized) :
    Spares (.error response : Except Response α) := by
  rintro _ ⟨⟩
  exact h

theorem Spares.bind {α β : Type} {x : Except Response α} {f : α → Except Response β}
    (hx : Spares x) (hf : ∀ v, Spares (f v)) : Spares (x >>= f) := by
  cases x with
  | error response => exact .error (hx response rfl)
  | ok v => exact hf v

theorem statusOf_ne_unauthorized (e : DriverError) : ServerError.statusOf e ≠ .unauthorized := by
  cases e <;> exact nofun

theorem readMessage_spares {α : Type} (codec : Json.Codec α) (r : Request) :
    Spares (readMessage codec r) := by
  unfold readMessage
  split
  · exact .error nofun
  · split
    · exact .error nofun
    · split
      · exact .ok _
      · rename_i e _
        refine .error ?_
        cases e <;> exact nofun

theorem readSegment_spares (segment : List Char) : Spares (readSegment segment) := by
  unfold readSegment
  split
  · exact .ok _
  · exact .error nofun

theorem requireName_spares (name : String) : Spares (requireName name) := by
  unfold requireName
  split
  · exact .error nofun
  · exact .ok _

theorem require_spares {α : Type} (outcome : Outcome α) : Spares (require outcome) := by
  cases outcome with
  | ok v => exact .ok v
  | error e => exact .error (statusOf_ne_unauthorized e)

theorem requireCredentials_spares (s : Secret) : Spares (requireCredentials s) :=
  .bind (require_spares _) fun _ => .ok _

theorem readNamed_spares (segment : List Char) (r : Request) : Spares (readNamed segment r) :=
  .bind (readSegment_spares segment) fun name => .bind (readMessage_spares _ r) fun m =>
    .bind (requireName_spares name) fun _ => .bind (requireCredentials_spares m.secret) fun _ =>
      .ok _

theorem ofRequest_spares (e : Endpoint) (r : Request) : Spares (ofRequest e r) := by
  cases e with
  | create =>
      exact .bind (readMessage_spares _ r) fun m => .bind (requireName_spares m.machineName)
        fun _ => .bind (require_spares _) fun _ => .bind (requireCredentials_spares m.secret)
          fun _ => .ok _
  | list =>
      exact .bind (readMessage_spares _ r) fun m => .bind (requireCredentials_spares m.secret)
        fun _ => .ok _
  | delete segment => exact .bind (readNamed_spares segment r) fun _ => .ok _
  | status segment => exact .bind (readNamed_spares segment r) fun _ => .ok _
  | shutdown segment => exact .bind (readNamed_spares segment r) fun _ => .ok _

theorem RunsAndReports.ne_unauthorized {α : Type} {operation : Program (Outcome α)}
    {success : Nat} {document : α → Json} {events : List Event} {response : Response}
    (h : RunsAndReports operation success document events response) (hsuccess : success ≠ 401) :
    response.status ≠ .unauthorized := by
  obtain ⟨outcome, -, hreports⟩ := h
  intro hstatus
  have hcode : response.status.code = 401 := congrArg Status.code hstatus
  cases outcome with
  | ok v => exact hsuccess (hreports.code_eq.symm.trans hcode)
  | error e =>
      have he : failureCode e = 401 := hreports.code_eq.symm.trans hcode
      exact statusOf_ne_unauthorized e (status_eq_of_code_eq ((code_statusOf e).trans he))

/-- No command that is carried out is answered as if the token were missing. -/
theorem perform_ends (policy : RetryPolicy) (command : Command) :
    (command.perform policy).Ends (fun response => response.status ≠ .unauthorized) := by
  intro events response hruns
  have hdrives := runs_perform_iff.mp hruns
  cases command <;> exact RunsAndReports.ne_unauthorized hdrives (by decide)

end Command

namespace Service

variable {c : Config} {r : Request}

/-- A server treats those who show its token as a server without a token treats all. -/
theorem respond_of_admits (h : c.admits r = true) :
    respond c r = respond { c with apiToken := none } r := by
  have hopen : Config.admits { c with apiToken := none } r = true := rfl
  rw [respond, respond, accept, accept, h, hopen]
  rfl

theorem accept_spares (h : c.admits r = true) : Command.Spares (accept c r) := by
  unfold accept
  rw [h]
  split
  · exact .error nofun
  · refine .error ?_
    unfold health
    split <;> exact nofun
  · split
    · exact Command.ofRequest_spares _ r
    · exact .error nofun

/-- Who shows the token is never answered as if it were missing. -/
theorem respond_ends (h : c.admits r = true) :
    (respond c r).Ends (fun response => response.status ≠ .unauthorized) := by
  have hspares := accept_spares h
  unfold respond
  cases haccept : accept c r with
  | ok command => exact command.perform_ends _
  | error response => exact .pure (hspares response haccept)

/-- Who does not show the token is turned away, except for the health check. -/
theorem refuses_of_not_admits (h : c.admits r = false)
    (hroute : Route.ofPath? r.path ≠ some .health) :
    ∃ response : Response, response.status = .unauthorized ∧ Refuses c r response := by
  have haccept : ∃ allow, accept c r = .error { unauthorized with allow := allow } := by
    unfold accept
    rw [h]
    split
    · exact ⟨none, rfl⟩
    · rename_i heq
      exact absurd heq hroute
    · split
      · exact ⟨none, rfl⟩
      · exact ⟨_, rfl⟩
  obtain ⟨allow, haccept⟩ := haccept
  exact ⟨_, rfl, refuses_of_accept haccept⟩

end Service

/-! ## Tokens -/

namespace Config

/-- **A token can be used exactly when it is ASCII.** A server that is configured with an ASCII
    token treats those who show it as a server without a token treats all, and never answers them
    that the token is missing. With any other token, which is as well taken from the environment,
    the server refuses every request except for the health check, whatever it shows. -/
theorem token_usable_iff_isAscii {env : Environment} {c : Config} {token : String}
    (hload : ofEnvironment env = .ok c) (htoken : c.apiToken = some token)
    (hlegal : Request.IsHeaderValue (Text.Utf8.encode ("Bearer " ++ token))) :
    (env.text? "DRIVER_API_TOKEN" = some token ∧ token ≠ "")
    ∧ (Text.IsAscii token → ∀ r : Request,
      r.header? "authorization" = some (Text.Utf8.encode ("Bearer " ++ token)) →
      Service.respond c r = Service.respond { c with apiToken := none } r
      ∧ ∀ events response, (Service.respond c r).Runs events response →
        response.status ≠ .unauthorized)
    ∧ (¬Text.IsAscii token → ∀ r : Request, Route.ofPath? r.path ≠ some .health →
      ∃ response : Response, response.status = .unauthorized ∧ Service.Refuses c r response) := by
  refine ⟨?_, fun hascii r hheader => ?_, fun hascii r hroute => ?_⟩
  · rw [apiToken_of_ofEnvironment hload] at htoken
    exact readToken_eq_some_iff.mp htoken
  · have hadmits := admits_of_isAscii htoken hascii hlegal hheader
    exact ⟨Service.respond_of_admits hadmits, Service.respond_ends hadmits⟩
  · exact Service.refuses_of_not_admits (admits_of_not_isAscii htoken hascii) hroute

/-- A listing that shows the token of the environment is not answered that it is missing. -/
theorem token_usable_of_letters :
    ∃ c, ofEnvironment (.ofList [("DRIVER_API_TOKEN", Text.Utf8.encode "s3cret")]) = .ok c
      ∧ c.apiToken = some "s3cret"
      ∧ ∀ events response, (Service.respond c
          { method := "POST"
            target := "/machines:list"
            headers := [("Authorization", Text.Utf8.encode "Bearer s3cret")] }).Runs
          events response → response.status ≠ .unauthorized := by
  have hload : ofEnvironment (.ofList [("DRIVER_API_TOKEN", Text.Utf8.encode "s3cret")])
      = .ok ⟨defaultAddress, some "s3cret", none⟩ := rfl
  obtain ⟨-, husable, -⟩ := token_usable_iff_isAscii hload rfl (by decide)
  exact ⟨_, hload, rfl, (husable (by decide) _ (by decide)).2⟩

/-- A token with an accent is taken from the environment and can be the value of a header, but a
    request that shows it is turned away. -/
theorem token_with_accent_is_not_usable :
    ∃ (c : Config) (r : Request) (response : Response),
      ofEnvironment (.ofList [("DRIVER_API_TOKEN", Text.Utf8.encode "clé")]) = .ok c
      ∧ c.apiToken = some "clé"
      ∧ Request.IsHeaderValue (Text.Utf8.encode ("Bearer " ++ "clé"))
      ∧ r.path = Endpoint.list.path ∧ r.method = Endpoint.list.method
      ∧ r.headers = [("authorization", Text.Utf8.encode ("Bearer " ++ "clé"))]
      ∧ response.status = .unauthorized ∧ Service.Refuses c r response := by
  obtain ⟨response, hstatus, hrefuses⟩ := Service.refuses_of_not_admits
    (c := ⟨defaultAddress, some "clé", none⟩)
    (r := { method := "POST"
            target := "/machines:list"
            headers := [("authorization", Text.Utf8.encode ("Bearer " ++ "clé"))] })
    (admits_of_not_isAscii rfl (by decide)) (by decide)
  exact ⟨_, _, response, rfl, rfl, by decide, by decide, rfl, rfl, hstatus, hrefuses⟩

end Config

end MachineDriver
