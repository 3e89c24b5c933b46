import MachineDriver.Proofs.Words

set_option autoImplicit false

/-!
# Outlines

Mappings from words to words or to further such mappings, as settings are written: one entry a line,
each indented under the key that it belongs to. This module says which values these are, and what
characters their texts are made of. -/

namespace MachineDriver.Yaml

variable {v : Yaml} {cs : List Char}

/-! ## Texts -/

/-- The characters of outlines: those of words, marks, blanks and line feeds. -/
def isOutlineChar (c : Char) : Bool :=
  isWordChar c || [':', '?', ' ', '\n'].contains c

/-- Lines of an outline: a word ends them. -/
structure IsOutlineText (cs : List Char) : Prop where
  chars : ∀ c ∈ cs, isOutlineChar c = true
  ends : cs.getLast?.any isWordChar = true

namespace IsOutlineText

variable {ds : List Char}

theorem append (hds : ∀ c ∈ ds, isOutlineChar c = true) (h : IsOutlineText cs) :
    IsOutlineText (ds ++ cs) where
  chars c hc := (List.mem_append.mp hc).elim (hds c) (h.chars c)
  ends := by
    have hends := h.ends
    rw [List.getLast?_append]
    cases hlast : cs.getLast? with
    | none =>
      rw [hlast] at hends
      cases hends
    | some c =>
      rw [hlast] at hends
      exact hends

theorem cons {c : Char} (hc : isOutlineChar c = true) (h : IsOutlineText cs) :
    IsOutlineText (c :: cs) :=
  show IsOutlineText ([c] ++ cs) from h.append fun d hd => by rwa [List.mem_singleton.mp hd]

/-- A line feed is due after a line. -/
theorem lineEnd_eq (h : IsOutlineText cs) : lineEnd cs = ['\n'] := by
  have hends := h.ends
  rw [lineEnd]
  cases hlast : cs.getLast? with
  | none => rfl
  | some c =>
    rw [hlast, Option.any_some] at hends
    rw [Option.any_some, isBreak_of_isWordChar hends]
    rfl

theorem of_isWord (h : IsWord v cs) : IsOutlineText cs where
  chars c hc := by simp [isOutlineChar, h.chars c hc]
  ends := by
    rw [List.getLast?_eq_some_getLast h.ne_nil]
    exact h.chars _ (List.getLast_mem h.ne_nil)

end IsOutlineText

theorem isOutlineChar_spaces (n : Nat) : ∀ c ∈ spaces n, isOutlineChar c = true := by
  intro c hc
  rw [(List.mem_replicate.mp hc).2]
  decide

theorem isOutlineChar_blank (p : Place) : ∀ c ∈ p.blank, isOutlineChar c = true := by
  rw [Place.blank]
  split
  · exact isOutlineChar_spaces 1
  · exact List.forall_mem_nil _

theorem isOutlineChar_beforeLines (p : Place) (column : Nat) :
    ∀ c ∈ p.beforeLines none column, isOutlineChar c = true := by
  rw [Place.beforeLines]
  split
  · exact isOutlineChar_blank p
  · exact List.forall_mem_cons.mpr ⟨by decide, isOutlineChar_spaces column⟩

theorem joinLines_cons (column : Nat) (h : IsOutlineText cs) {lines : List (List Char)}
    (hne : lines ≠ []) : joinLines column (cs :: lines)
      = cs ++ ('\n' :: spaces column ++ joinLines column lines) := by
  obtain ⟨l, lines, rfl⟩ := List.exists_cons_of_ne_nil hne
  rw [joinLines, h.lineEnd_eq]
  · simp
  · exact hne

/-- Lines of which each begins at a column. -/
theorem IsOutlineText.joinLines (column : Nat) {lines : List (List Char)} (hne : lines ≠ [])
    (h : ∀ l ∈ lines, IsOutlineText l) : IsOutlineText (joinLines column lines) := by
  induction lines with
  | nil => exact absurd rfl hne
  | cons l lines ih =>
    have hl := h l List.mem_cons_self
    cases lines with
    | nil => exact hl
    | cons l' lines =>
      have hne := List.cons_ne_nil l' lines
      have hrest := ih hne fun m hm => h m (List.mem_cons_of_mem l hm)
      rw [joinLines_cons column hl hne]
      exact ((hrest.append (isOutlineChar_spaces column)).cons (by decide)).append hl.chars

/-! ## Outlines -/

/-- A word, or a mapping from words to outlines that repeats no key; mappings are nested to at most
a depth. -/
inductive IsOutline : Nat → Yaml → Prop where
  | word {depth : Nat} {v : Yaml} {cs : List Char} (h : IsWord v cs) : IsOutline depth v
  | mapping {depth : Nat} {es : List (Yaml × Yaml)} (hne : es ≠ [])
      (hkeys : ∀ e ∈ es, ∃ cs, IsWord e.1 cs)
      (hdistinct : es.Pairwise fun e f => same e.1 f.1 = false)
      (hvalues : ∀ e ∈ es, IsOutline depth e.2) : IsOutline (depth + 1) (.mapping es)

/-- An entry is a line, or two with a long key. -/
theorem exists_entryLine {k : Yaml} (hk : IsWord k cs) (column : Nat) (v : Yaml) :
    ∃ line, (∀ es, entryLines column ((k, v) :: es) = line :: entryLines column es)
      ∧ (cs.length ≤ 128 ∧ line = cs ++ ':' :: textAt (.value column) none v
        ∨ line = '?' :: ' ' :: cs ++ '\n' :: spaces column
          ++ ':' :: textAt (.explicit column) none v) := by
  simp only [entryLines]
  rcases simpleKey?_of_plainText? hk.written with hlong | ⟨hsimple, hlength⟩
  · have hkey : lineEnd ('?' :: textAt (.explicit column) none k) = ['\n'] := by
      rw [textAt_of_plainText? hk.written]
      exact ((IsOutlineText.of_isWord hk).cons (by decide)).cons (by decide) |>.lineEnd_eq
    simp only [hlong]
    refine ⟨_, fun _ => rfl, .inr ?_⟩
    rw [hkey, textAt_of_plainText? hk.written]
    simp [Place.blank, Place.explicit]
  · simp only [hsimple]
    exact ⟨_, fun _ => rfl, .inl ⟨hlength, rfl⟩⟩

/-- The lines of the entries of an outline. -/
theorem isOutlineText_of_mem_entryLines (column : Nat) {es : List (Yaml × Yaml)}
    (hkeys : ∀ e ∈ es, ∃ cs, IsWord e.1 cs)
    (hvalues : ∀ e ∈ es, ∀ p, IsOutlineText (textAt p none e.2)) :
    ∀ l ∈ entryLines column es, IsOutlineText l := by
  induction es with
  | nil => exact nofun
  | cons e es ih =>
    obtain ⟨k, v⟩ := e
    obtain ⟨cs, hk⟩ := hkeys _ List.mem_cons_self
    have hrest := ih (fun e he => hkeys e (List.mem_cons_of_mem _ he))
      fun e he => hvalues e (List.mem_cons_of_mem _ he)
    have hword := IsOutlineText.of_isWord hk
    have hvalue (p : Place) : IsOutlineText (':' :: textAt p none v) :=
      (hvalues _ List.mem_cons_self p).cons (by decide)
    obtain ⟨line, hlines, ⟨-, rfl⟩ | rfl⟩ := exists_entryLine hk column v
    · rw [hlines]
      exact List.forall_mem_cons.mpr ⟨(hvalue _).append hword.chars, hrest⟩
    · rw [hlines]
      have hfirst := ((hvalue (.explicit column)).append (isOutlineChar_spaces column)).cons
        (c := '\n') (by decide)
      refine List.forall_mem_cons.mpr ⟨?_, hrest⟩
      simpa using ((hfirst.append hword.chars).cons (by decide)).cons (c := '?') (by decide)

/-- The text of an outline. -/
theorem isOutlineText_textAt {depth : Nat} (h : IsOutline depth v) (p : Place) :
    IsOutlineText (textAt p none v) := by
  induction h generalizing p with
  | word h =>
    rw [textAt_of_plainText? h.written]
    exact (IsOutlineText.of_isWord h).append (isOutlineChar_blank p)
  | @mapping depth es hes hkeys _ _ ih =>
    obtain ⟨e, es, rfl⟩ := List.exists_cons_of_ne_nil hes
    rw [textAt]
    have hne : entryLines p.deeper (e :: es) ≠ [] := List.cons_ne_nil _ _
    exact (IsOutlineText.joinLines _ hne
      (isOutlineText_of_mem_entryLines _ hkeys ih)).append (isOutlineChar_beforeLines p _)

/-! ## Tokens -/

mutual

/-- The tokens of an outline. -/
def outlineTokens : Yaml → List Token
  | .mapping es => .blockMappingStart :: entryTokens es ++ [.blockEnd]
  | v => [.scalar true ((plainText? v).getD [])]

/-- The tokens of the entries of an outline. -/
def entryTokens : List (Yaml × Yaml) → List Token
  | [] => []
  | (k, v) :: es => .key :: outlineTokens k ++ .value :: outlineTokens v ++ entryTokens es

end

theorem outlineTokens_of_isWord (h : IsWord v cs) : outlineTokens v = [.scalar true cs] := by
  have hwritten := h.written
  cases v with
  | mapping es => cases hwritten
  | _ =>
    rw [outlineTokens, hwritten, Option.getD_some]
    exact nofun

end MachineDriver.Yaml
