import MachineDriver.Cluster.World
import MachineDriver.Proofs.Creation
import MachineDriver.Proofs.Utf8

set_option autoImplicit false

/-!
# What becomes of user data

User data is taken for text on its way from the credentials to the secret of a machine. Bytes that
are text get there unchanged. In others every part that is no character becomes the replacement
character, so compressed user data, say, is altered without an error. -/

namespace MachineDriver

open Program Text

variable {name : String} {spec : MachineSpec} {credentials : Credentials}

/-! ## From the credentials to the plan -/

namespace Credentials

/-- The bytes of user data that credentials have are repaired. -/
theorem repaired_iff_of_entry {bytes kept : List UInt8}
    (h : credentials.get? userDataEntry = some bytes) :
    Utf8.Repaired bytes kept ↔ kept = Utf8.encode credentials.userData := by
  rw [Utf8.repaired_iff, userData, h]

/-- They are left as they are exactly when they are a text. -/
theorem encode_userData_eq_iff_of_entry {bytes : List UInt8}
    (h : credentials.get? userDataEntry = some bytes) :
    Utf8.encode credentials.userData = bytes ↔ ∃ text, bytes = Utf8.encode text := by
  rw [userData, h]
  exact Utf8.encode_decodeLenient_eq_iff

theorem encode_userData_of_no_entry (h : credentials.get? userDataEntry = none) :
    Utf8.encode credentials.userData = [] := by
  rw [userData, h]
  rfl

end Credentials

namespace Plan.Settled

variable {preparation : List Event} {plan : Plan}

/-- Where there are no keys to add, the user data of a plan is that of the credentials. -/
theorem userData_eq_of_no_keys (settled : plan.Settled name spec credentials preparation)
    (hkeys : spec.sshKeys = []) : plan.userData = credentials.userData := by
  have hsettled := settled.userData_eq
  rw [userDataFor, hkeys, List.isEmpty_nil, if_pos rfl, Except.ok.injEq] at hsettled
  exact hsettled.symm

/-- The one secret that a creation asks for is that of its plan. -/
theorem eq_secret_of_mem (settled : plan.Settled name spec credentials preparation)
    {created : VirtualMachine} {machine : Except StoreError VirtualMachine}
    {secret : Except StoreError Secret} {s : Secret} {e : Event}
    (he : e ∈ preparation ++ [⟨.createVirtualMachine plan.virtualMachine, machine⟩,
      ⟨.createSecret (plan.secret created), secret⟩])
    (hcall : e.call = .createSecret s) : s = plan.secret created := by
  rcases List.mem_append.mp he with hread | hwrite
  · have hreads := settled.reads e hread
    rw [hcall] at hreads
    cases hreads
  · rw [List.mem_cons, List.mem_singleton] at hwrite
    rcases hwrite with rfl | rfl
    · cases hcall
    · cases hcall
      rfl

end Plan.Settled

/-! ## From the plan to the secret -/

/-- **User data reaches the secret as text.** A creation without keys for logging in that succeeds
    makes one secret. It holds nothing but the user data: the bytes of the credentials with each
    part that is no character replaced, so the same bytes exactly when they are a text; and no bytes
    when the credentials have none. -/
theorem createMachine_stores_user_data {events : List Event} {id : String}
    (hkeys : spec.sshKeys = [])
    (h : (createMachine name spec credentials).Runs events (.ok id)) :
    ∃ s made stored, (⟨.createSecret s, .ok made⟩ : Event) ∈ events
      ∧ (∀ e ∈ events, ∀ t, e.call = .createSecret t → t = s)
      ∧ s.data = some (TextMap.empty.insert "userdata" stored)
      ∧ (credentials.get? "userData" = none → stored = [])
      ∧ ∀ bytes, credentials.get? "userData" = some bytes →
        (∀ kept, Utf8.Repaired bytes kept ↔ kept = stored)
          ∧ (stored = bytes ↔ ∃ text, bytes = Utf8.encode text) := by
  rcases cases_of_runs_createMachine h with ⟨e, hok, -⟩ | ⟨plan, preparation, writes, rfl, settled,
    hcommit⟩
  · cases hok
  rcases Plan.cases_of_runs_commit hcommit with ⟨fault, -, hok⟩ | ⟨created, fault, -, hok⟩
    | ⟨created, made, rfl, -⟩
  · cases hok
  · cases hok
  · refine ⟨plan.secret created, made, Utf8.encode credentials.userData, by simp,
      fun e he t ht => settled.eq_secret_of_mem he ht, ?_, Credentials.encode_userData_of_no_entry,
      fun bytes hbytes => ⟨fun kept => Credentials.repaired_iff_of_entry hbytes,
        Credentials.encode_userData_eq_iff_of_entry hbytes⟩⟩
    rw [Plan.secret, settled.userData_eq_of_no_keys hkeys]
    rfl

/-- User data that is a text arrives as it is, here with a character of two bytes. -/
theorem createMachine_stores_text_unchanged :
    ∃ events s made, (createMachine "a" {} ⟨TextMap.empty.insert "userData" (Utf8.encode "é")⟩).Runs
        events (.ok "kubevirt://a")
      ∧ (⟨.createSecret s, .ok made⟩ : Event) ∈ events
      ∧ s.data = some (TextMap.empty.insert "userdata" (Utf8.encode "é")) := by
  obtain ⟨events, h, -⟩ := exists_halts_run World.answer
    (createMachine "a" {} ⟨TextMap.empty.insert "userData" (Utf8.encode "é")⟩) {}
  have hruns : (createMachine "a" {} ⟨TextMap.empty.insert "userData" (Utf8.encode "é")⟩).Runs
      events (.ok "kubevirt://a") := h
  obtain ⟨s, made, stored, hmem, -, hdata, -, hstored⟩ := createMachine_stores_user_data rfl hruns
  rw [(hstored (Utf8.encode "é") rfl).2.mpr ⟨"é", rfl⟩] at hdata
  exact ⟨events, s, made, hruns, hmem, hdata⟩

/-- The first bytes of compressed user data arrive altered. -/
theorem createMachine_alters_compressed_user_data :
    ((createMachine "a" {} ⟨TextMap.empty.insert "userData" [0x1F, 0x8B]⟩).run World.answer {}).1
        = some (.ok "kubevirt://a")
      ∧ ((createMachine "a" {} ⟨TextMap.empty.insert "userData" [0x1F, 0x8B]⟩).run
          World.answer {}).2.cluster.secrets.map (·.data)
        = [some (TextMap.empty.insert "userdata" [0x1F, 0xEF, 0xBF, 0xBD])]
      ∧ TextMap.empty.insert "userdata" [(0x1F : UInt8), 0xEF, 0xBF, 0xBD]
        ≠ TextMap.empty.insert "userdata" [0x1F, 0x8B] := by
  refine ⟨rfl, by decide +kernel, by decide⟩

end MachineDriver
