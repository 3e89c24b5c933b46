import Mathlib.Data.List.TakeWhile

set_option autoImplicit false

/-!
# Cutting texts

A text is cut where a run of characters ends, at the first place of a character, at all places of a
character, or at all places of two characters that follow each other. Each time the parts are found
again if they are free of what the text is cut at. -/

namespace MachineDriver.Text

/-! ## Runs -/

section Runs

variable {p : Char → Bool} {front rest : List Char}

theorem takeWhile_append_of_head (hfront : ∀ c ∈ front, p c = true)
    (hrest : ∀ c ∈ rest.head?, p c = false) : (front ++ rest).takeWhile p = front := by
  rw [List.takeWhile_append_of_pos hfront]
  cases rest with
  | nil => simp
  | cons c rest =>
      rw [List.takeWhile_cons_of_neg (by simp [hrest c rfl]), List.append_nil]

theorem dropWhile_append_of_head (hfront : ∀ c ∈ front, p c = true)
    (hrest : ∀ c ∈ rest.head?, p c = false) : (front ++ rest).dropWhile p = rest := by
  rw [List.dropWhile_append_of_pos hfront]
  cases rest with
  | nil => rfl
  | cons c rest => exact List.dropWhile_cons_of_neg (by simp [hrest c rfl])

theorem of_mem_head?_dropWhile {cs : List Char} {c : Char} (h : c ∈ (cs.dropWhile p).head?) :
    p c = false := by
  have hhead := List.head?_dropWhile_not p cs
  rw [Option.mem_def.mp h] at hhead
  simpa using hhead

theorem head?_append_of_mem {c : Char} (h : c ∈ front.head?) : (front ++ rest).head? = some c := by
  rw [List.head?_append, Option.mem_def.mp h, Option.some_or]

end Runs

/-! ## The first place of a character -/

section FirstPlace

variable {c : Char} {cs front rest : List Char}

theorem all_ne (h : c ∉ cs) : ∀ d ∈ cs, decide (d ≠ c) = true :=
  fun _ hd => decide_eq_true fun heq => h (heq ▸ hd)

theorem notMem_takeWhile_ne (c : Char) (cs : List Char) : c ∉ cs.takeWhile (· ≠ c) := by
  intro hc
  simpa using List.mem_takeWhile_imp hc

theorem takeWhile_ne_append (h : c ∉ front) (rest : List Char) :
    (front ++ c :: rest).takeWhile (· ≠ c) = front :=
  takeWhile_append_of_head (all_ne h) (by simp)

theorem dropWhile_ne_append (h : c ∉ front) (rest : List Char) :
    (front ++ c :: rest).dropWhile (· ≠ c) = c :: rest :=
  dropWhile_append_of_head (all_ne h) (by simp)

/-- What is in front of the first place, this place, and what comes after it are the whole. -/
theorem eq_append_of_dropWhile_ne {d : Char} (h : cs.dropWhile (· ≠ c) = d :: rest) :
    cs = cs.takeWhile (· ≠ c) ++ c :: rest := by
  have hhead := of_mem_head?_dropWhile (Option.mem_def.mpr (congrArg List.head? h))
  obtain rfl : d = c := by simpa using hhead
  rw [← h, List.takeWhile_append_dropWhile]

end FirstPlace

/-! ## All places of a character -/

/-- The parts of a text between separators have none. -/
theorem notMem_of_mem_splitOn {separator : Char} {cs part : List Char}
    (h : part ∈ cs.splitOn separator) : separator ∉ part := by
  induction cs generalizing part with
  | nil =>
      rw [List.splitOn_nil, List.mem_singleton] at h
      simp [h]
  | cons c cs ih =>
      rw [List.splitOn_cons_eq_if_modifyHead] at h
      split at h
      · rcases List.mem_cons.mp h with rfl | h
        · simp
        · exact ih h
      · rename_i hc
        obtain ⟨first, rest, hsplit⟩ :=
          List.exists_cons_of_ne_nil (List.splitOn_ne_nil separator cs)
        rw [hsplit, List.modifyHead_cons, List.mem_cons] at h
        rw [hsplit] at ih
        rcases h with rfl | h
        · rw [List.mem_cons, not_or]
          exact ⟨fun heq => hc (by simp [heq]), ih List.mem_cons_self⟩
        · exact ih (List.mem_cons_of_mem _ h)

/-! ## All places of two characters -/

/-- Characters split at the places of a separator of two characters, which are looked for from the
    left. -/
def splitPair (a b : Char) : List Char → List (List Char)
  | [] => [[]]
  | [c] => [[c]]
  | c :: d :: rest =>
      if c = a ∧ d = b then [] :: splitPair a b rest
      else (splitPair a b (d :: rest)).modifyHead (c :: ·)

variable {a b : Char} {part : List Char}

theorem splitPair_cons_of_ne {c : Char} (hc : c ≠ a) (rest : List Char) :
    splitPair a b (c :: rest) = (splitPair a b rest).modifyHead (c :: ·) := by
  cases rest with
  | nil => rfl
  | cons d rest => rw [splitPair, if_neg (fun h => hc h.1)]

theorem splitPair_of_notMem (h : a ∉ part) : splitPair a b part = [part] := by
  induction part with
  | nil => rfl
  | cons c part ih =>
      rw [List.mem_cons, not_or] at h
      rw [splitPair_cons_of_ne (Ne.symm h.1), ih h.2]
      rfl

theorem splitPair_append (h : a ∉ part) (rest : List Char) :
    splitPair a b (part ++ a :: b :: rest) = part :: splitPair a b rest := by
  induction part with
  | nil => exact if_pos ⟨rfl, rfl⟩
  | cons c part ih =>
      rw [List.mem_cons, not_or] at h
      rw [List.cons_append, splitPair_cons_of_ne (Ne.symm h.1), ih h.2]
      rfl

/-- Texts that are free of the separator are found again between its places. -/
theorem splitPair_intercalate {parts : List (List Char)} (hne : parts ≠ [])
    (h : ∀ part ∈ parts, a ∉ part) : splitPair a b ([a, b].intercalate parts) = parts := by
  induction parts with
  | nil => exact absurd rfl hne
  | cons part rest ih =>
      rw [List.forall_mem_cons] at h
      cases rest with
      | nil => simpa using splitPair_of_notMem h.1
      | cons next rest =>
          rw [List.intercalate_cons_cons, List.append_assoc]
          exact (splitPair_append h.1 _).trans (congrArg _ (ih (List.cons_ne_nil _ _) h.2))

end MachineDriver.Text
