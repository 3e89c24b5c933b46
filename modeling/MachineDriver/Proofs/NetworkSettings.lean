import MachineDriver.Proofs.Attachment
import MachineDriver.Proofs.OutlineValues

set_option autoImplicit false

/-!
# Every card is configured

The settings of a machine's network ask for an address on each of its cards, once and in the order
of the names as texts, and mean this when they are read, `networkData_configures_cards`. Only a
machine without a list of networks has no settings. -/

namespace MachineDriver

open Yaml NetworkLayout

namespace NetworkLayout

/-- The settings of cards of some names: each asks for an address. -/
def settingsOf (names : List String) : Yaml :=
  .mapping [(.text "version", .integer 2),
    (.text "ethernets",
      .mapping (names.map fun n => (.text n, .mapping [(.text "dhcp4", .bool true)])))]

/-- The names of the first cards of a machine, in the order of texts. -/
def cardNames (count : Nat) : List String :=
  (cards count).entries.map Prod.fst

/-! ## Names -/

/-- Each of the cards is named once. -/
theorem cardNames_perm (count : Nat) :
    (cardNames count).Perm ((List.range count).map (numbered "eth")) := by
  have hperm := (entries_cards_perm count).map Prod.fst
  rwa [List.map_map] at hperm

theorem pairwise_cardNames (count : Nat) : (cardNames count).Pairwise (· < ·) :=
  List.pairwise_map.mpr (cards count).ascending

theorem settings_eq (count : Nat) : settings count = settingsOf (cardNames count) := by
  have hvalues : ∀ e ∈ (cards count).entries, e.2 = cardSettings := by
    intro e he
    obtain ⟨i, -, rfl⟩ := List.mem_map.mp ((entries_cards_perm count).mem_iff.mp he)
    rfl
  have hentries : ((cards count).entries.map fun e => ((Yaml.text e.1, e.2) : Yaml × Yaml))
      = (cardNames count).map fun n => (.text n, cardSettings) := by
    rw [cardNames, List.map_map]
    exact List.map_congr_left fun e he => by rw [hvalues e he]; rfl
  rw [settings, hentries]
  rfl

/-! ## Reading the settings -/

theorem isWordChar_of_isDigit {c : Char} (h : c.isDigit = true) : isWordChar c = true := by
  have hdash : c ≠ '-' := by
    rintro rfl
    exact absurd h (by decide)
  simp [isWordChar, isNameChar, hdash, Text.isDigit_iff.mp h]

theorem isWord_numbered (i : Nat) :
    IsWord (.text (numbered "eth" i)) (numbered "eth" i).toList := by
  have hname : (numbered "eth" i).toList = 'e' :: ('t' :: 'h' :: Text.decimal i) :=
    toList_numbered "eth" i
  rw [hname]
  refine isWord_text hname (by decide) ?_
  simp only [List.forall_mem_cons]
  exact ⟨by decide, by decide, by decide, fun c hc =>
    isWordChar_of_isDigit (Text.isDigit_of_mem_decimal hc)⟩

theorem isOutline_settingsOf {names : List String} (hne : names ≠ [])
    (hwords : ∀ n ∈ names, IsWord (.text n) n.toList) (hdistinct : names.Pairwise (· < ·)) :
    IsOutline 128 (settingsOf names) := by
  have hversion : IsWord (.text "version") "version".toList :=
    isWord_text rfl (by decide) (List.all_eq_true.mp (by decide))
  have hethernets : IsWord (.text "ethernets") "ethernets".toList :=
    isWord_text rfl (by decide) (List.all_eq_true.mp (by decide))
  have hdhcp : IsWord (.text "dhcp4") "dhcp4".toList :=
    isWord_text rfl (by decide) (List.all_eq_true.mp (by decide))
  have htwo : IsWord (.integer 2) ['2'] :=
    ⟨rfl, by decide, List.all_eq_true.mp (by decide), by decide⟩
  have htrue : IsWord (.bool true) "true".toList :=
    ⟨rfl, by decide, List.all_eq_true.mp (by decide), by decide⟩
  have hcard : IsOutline 126 (.mapping [(.text "dhcp4", .bool true)]) :=
    .mapping (by decide) (by simpa using ⟨_, hdhcp⟩) (by simp) (by simpa using .word htrue)
  have hcards : IsOutline 127 (.mapping (names.map fun n =>
      (.text n, .mapping [(.text "dhcp4", .bool true)]))) := by
    refine .mapping (by simpa using hne)
      (List.forall_mem_map.mpr fun n hn => ⟨n.toList, hwords n hn⟩) ?_
      (List.forall_mem_map.mpr fun n _ => hcard)
    refine List.pairwise_map.mpr (hdistinct.imp fun {m n} hlt => ?_)
    have hdifferent : m ≠ n := by
      rintro rfl
      exact String.lt_irrefl m hlt
    simpa [same] using hdifferent
  have hkeys : same (.text "version") (.text "ethernets") = false := by decide
  refine .mapping nofun ?_ ?_ ?_
  · exact List.forall_mem_cons.mpr ⟨⟨_, hversion⟩, List.forall_mem_singleton.mpr ⟨_, hethernets⟩⟩
  · simpa using hkeys
  · exact List.forall_mem_cons.mpr ⟨.word htwo, List.forall_mem_singleton.mpr hcards⟩

end NetworkLayout

/-- **Every card is configured exactly once.** The layout of a list of networks has settings exactly
    when the list is not empty. They are the text of the settings of names in ascending order, each
    name once and just those of the cards of the layout, and are read as these settings. -/
theorem networkData_configures_cards (specs : List NetworkSpec) :
    ∃ layout, ofSpecs specs = .ok layout
      ∧ (layout.networkData = none ↔ specs = [])
      ∧ ∀ text, layout.networkData = some text → ∃ names : List String,
        names.Pairwise (· < ·)
        ∧ names.Perm ((List.range layout.interfaces.length).map (numbered "eth"))
        ∧ text = (settingsOf names).toText
        ∧ ofText? text = some (settingsOf names) := by
  refine ⟨_, ofSpecs_eq specs, ?_⟩
  cases specs with
  | nil => exact ⟨⟨fun _ => rfl, fun _ => rfl⟩, nofun⟩
  | cons s specs =>
    refine ⟨⟨nofun, nofun⟩, ?_⟩
    intro text htext
    have htext : text = (settings (interfacesOf (s :: specs)).length).toText :=
      (Option.some.inj htext).symm
    have hcount : 0 < (interfacesOf (s :: specs)).length := by
      rw [interfacesOf, List.length_append, bridges, List.length_cons]
      omega
    have hperm := cardNames_perm (interfacesOf (s :: specs)).length
    have hne : cardNames (interfacesOf (s :: specs)).length ≠ [] := by
      intro hnil
      have hlength := hperm.length_eq
      rw [hnil, List.length_map, List.length_range] at hlength
      exact absurd hlength (Nat.ne_of_lt hcount)
    have hwords : ∀ n ∈ cardNames (interfacesOf (s :: specs)).length,
        IsWord (.text n) n.toList := by
      intro n hn
      obtain ⟨i, -, rfl⟩ := List.mem_map.mp (hperm.mem_iff.mp hn)
      exact isWord_numbered i
    have hascending := pairwise_cardNames (interfacesOf (s :: specs)).length
    rw [settings_eq] at htext
    refine ⟨_, hascending, hperm, htext, ?_⟩
    rw [htext]
    exact ofText?_toText_mapping (isOutline_settingsOf hne hwords hascending)

/-- The order of texts is not that of numbers. -/
example : cardNames 11 = ["eth0", "eth1", "eth10", "eth2", "eth3", "eth4", "eth5", "eth6", "eth7",
    "eth8", "eth9"] := by
  decide +kernel

end MachineDriver
