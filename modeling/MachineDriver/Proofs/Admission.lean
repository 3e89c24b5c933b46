import MachineDriver.Proofs.Routing
import MachineDriver.Proofs.Session
import MachineDriver.Proofs.Utf8

set_option autoImplicit false

/-!
# Requests that show no token

`Config.KeepsOut` says in terms of bytes that a request does not show the token of a server. Such a
request to the path of an endpoint is refused, and `Service.refuses_alike_of_keepsOut` says that the
refusal depends on its method and its path alone: two servers with any tokens, before any clusters,
refuse two requests in the same way if these agree in both. -/

namespace MachineDriver

/-! ## Visible bytes -/

namespace Request

theorem lt_of_isVisible {byte : UInt8} (h : isVisible byte = true) : byte.toNat < 0x80 := by
  simp only [isVisible, Bool.or_eq_true, decide_eq_true_eq, Bool.and_eq_true] at h
  rcases h with rfl | ⟨-, hhigh⟩
  · decide
  · exact Nat.lt_succ_of_lt (UInt8.lt_iff_toNat_lt.mp hhigh)

theorem encode_of_isVisible {byte : UInt8} (h : isVisible byte = true) :
    String.utf8EncodeChar (Char.ofNat byte.toNat) = [byte] :=
  Text.Utf8.encode_ascii (lt_of_isVisible h)

/-- Bytes that all can be seen are those of their characters. -/
theorem eq_encodeChars_of_visibleText? {bytes : List UInt8} {cs : List Char}
    (h : visibleText? bytes = some cs) : bytes = Text.Utf8.encodeChars cs := by
  unfold visibleText? at h
  split at h
  · rename_i hall
    cases h
    induction bytes with
    | nil => rfl
    | cons byte rest ih =>
        rw [List.all_cons, Bool.and_eq_true] at hall
        rw [List.map_cons, Text.Utf8.encodeChars, List.flatMap_cons, encode_of_isVisible hall.1]
        exact congrArg (byte :: ·) (ih hall.2)
  · cases h

theorem header?_of_headerText? {r : Request} {name : String} {cs : List Char}
    (h : r.headerText? name = some cs) : r.header? name = some (Text.Utf8.encodeChars cs) := by
  obtain ⟨bytes, hbytes, hcs⟩ := Option.bind_eq_some_iff.mp h
  rw [hbytes, eq_encodeChars_of_visibleText? hcs]

end Request

/-! ## Showing the token -/

/-- A server wants a token, and the first header of a request that is for the token is missing or
    says anything else. -/
def Config.KeepsOut (c : Config) (r : Request) : Prop :=
  ∃ token, c.apiToken = some token
    ∧ r.header? "authorization" ≠ some (Text.Utf8.encode ("Bearer " ++ token))

theorem Config.admits_of_keepsOut {c : Config} {r : Request} (h : c.KeepsOut r) :
    c.admits r = false := by
  obtain ⟨token, htoken, hheader⟩ := h
  rw [admits, htoken, Bool.eq_false_iff]
  intro hadmits
  refine hheader (Request.header?_of_headerText? (beq_iff_eq.mp hadmits) |>.trans ?_)
  rw [Text.Utf8.encode, String.toList_append]

/-! ## The refusal -/

namespace Service

/-- What a request to an endpoint is answered that shows no token. -/
def turnAway (e : Endpoint) (method : String) : Response :=
  { unauthorized with
    allow := if method = e.method then none else some e.method
    headOnly := method = "HEAD" }

/-- A request to an endpoint that shows no token is turned away, whatever else it carries. -/
theorem refuses_of_keepsOut {c : Config} {r : Request} {e : Endpoint} (hproper : e.IsProper)
    (hpath : r.path = e.path) (hkeeps : c.KeepsOut r) : Refuses c r (turnAway e r.method) := by
  have hadmits := Config.admits_of_keepsOut hkeeps
  have haccept : accept c r = .error { unauthorized with
      allow := if r.method = e.method then none else some e.method } := by
    rw [accept, hpath, Route.ofPath?_path hproper]
    by_cases hmethod : r.method = e.method <;> simp [hmethod, hadmits, unauthorized,
      ServerError.response]
  exact refuses_of_accept haccept

/-- **Without the token nothing can be done or learnt.** Two requests with the same method to the
    same path of an endpoint that both show no token are refused with one and the same response,
    which says no more than that. They may differ in all else, and so may the servers. -/
theorem refuses_alike_of_keepsOut {c c' : Config} {r r' : Request} {e : Endpoint}
    (hproper : e.IsProper) (hpath : r.path = e.path) (hpath' : r'.path = r.path)
    (hmethod : r'.method = r.method) (hkeeps : c.KeepsOut r) (hkeeps' : c'.KeepsOut r') :
    ∃ response : Response,
      response.status.code = 401 ∧ Refuses c r response ∧ Refuses c' r' response := by
  have hrefuses' := refuses_of_keepsOut hproper (hpath'.trans hpath) hkeeps'
  rw [hmethod] at hrefuses'
  exact ⟨turnAway e r.method, rfl, refuses_of_keepsOut hproper hpath hkeeps,
    hrefuses'⟩

/-- A request without a token to one server and a request with a document and the token of that
    server to another are refused in the same way. -/
theorem refuses_alike_missing_and_wrong_token :
    ∃ response : Response, response.status.code = 401
      ∧ Refuses ⟨Config.defaultAddress, some "first", none⟩
          { method := "GET", target := "/machines/vm-a/status" } response
      ∧ Refuses ⟨Config.defaultAddress, some "second", some 2⟩
          { method := "GET"
            target := "/machines/vm-a/status?verbose"
            headers := [("Authorization", Text.Utf8.encode "Bearer first")]
            body := Text.Utf8.encode "null" } response :=
  refuses_alike_of_keepsOut (e := .status "vm-a".toList)
    (by rintro segment ⟨⟩; decide) (by decide) (by decide) rfl ⟨"first", rfl, nofun⟩
    ⟨"second", rfl, by decide⟩

end Service

end MachineDriver
