import MachineDriver.Proofs.Outline
import MachineDriver.Proofs.WordTokens

set_option autoImplicit false

/-!
# The tokens of an outline

Cutting the text of an outline into tokens gives its tokens, `tokens?_toText_mapping`: a value is
read as its tokens wherever it stands, `Lexer.IsReadAsValue`, since words are and since a mapping is
if its values are. -/

namespace MachineDriver.Yaml

namespace Lexer

variable {line column : Nat} {cs rest : List Char} {all : List Token}

/-! ## Values and entries -/

/-- Where the value of a key at a column is read: on the same line as a simple key, or after a colon
at the column, where a key may begin. -/
inductive IsValuePlace (n : Nat) : Place → Bool → Nat → Prop where
  | simple {column : Nat} (h : n < column) : IsValuePlace n (.value n) false column
  | explicit : IsValuePlace n (.explicit n) true (n + 1)

/-- What follows lines of a collection at a column: nothing, or a line that is not more indented. -/
def FollowsAt (n k : Nat) (rest : List Char) : Prop :=
  ∀ c ∈ rest.head?, isStart c = true ∧ k ≤ n

/-- A value is read as its tokens wherever it stands. -/
def IsReadAsValue (v : Yaml) : Prop :=
  ∀ (n : Nat) (p : Place) (allowed : Bool) (line column k : Nat) (ns : List Nat) (ts : List Token)
    (rest : List Char) (all : List Token), IsValuePlace n p allowed column → FollowsAt n k rest →
    (∀ line candidate, Loose candidate →
      (outside ((outlineTokens v).reverse ++ ts) (n :: ns) true candidate).Reads line k rest all) →
    (outside ts (n :: ns) allowed none).Reads line column
      (textAt p none v ++ ('\n' :: spaces k ++ rest)) all

theorem isReadAsValue_word {v : Yaml} (h : IsWord v cs) : IsReadAsValue v := by
  intro n p allowed line column k ns ts rest all hp hrest hread
  have hcolumn : n < column := by
    cases hp with
    | simple h => exact h
    | explicit => exact Nat.lt_succ_self n
  have hblank : p.blank = [' '] := by
    cases hp <;> rfl
  rw [textAt_of_plainText? h.written, hblank]
  refine reads_space (reads_lastWord h.ne_nil h.chars loose_none (by omega) hrest ?_)
  rw [outlineTokens_of_isWord h] at hread
  refine hread _ _ ?_
  cases allowed with
  | false => exact loose_none
  | true =>
    rintro c ⟨⟩
    simp [candidateAt]
    omega

theorem atWordEnd_textAt {depth : Nat} {v : Yaml} {p : Place} (h : IsOutline depth v)
    (hp : p.column.isSome = true) (rest : List Char) (line column : Nat) :
    atWordEnd (placeFrom line column (textAt p none v ++ rest)) = true := by
  have hblank : p.blank = [' '] := if_pos hp
  cases h with
  | word h =>
    rw [textAt_of_plainText? h.written, hblank]
    rfl
  | mapping hne =>
    obtain ⟨e, es, rfl⟩ := List.exists_cons_of_ne_nil hne
    rw [textAt, Place.beforeLines]
    split
    · rw [hblank]
      rfl
    · rfl

section

variable {ts : List Token} {indents : List Nat} {candidate : Option Candidate} {depth k : Nat}

/-- An entry is read, and then what follows it. -/
theorem reads_entry {key v : Yaml} {entry : List Char} (hkey : IsWord key cs)
    (houtline : IsOutline depth v) (hvalue : IsReadAsValue v) (hloose : Loose candidate)
    (hindents : ∀ n ∈ indents.head?, n ≤ column) (hrest : FollowsAt column k rest)
    (hentry : cs.length ≤ 128 ∧ entry = cs ++ ':' :: textAt (.value column) none v
      ∨ entry = '?' :: ' ' :: cs ++ '\n' :: spaces column
        ++ ':' :: textAt (.explicit column) none v)
    (h : ∀ line candidate, Loose candidate →
      (outside ((entryTokens [(key, v)]).reverse ++ (opened ts indents column).1)
        (opened ts indents column).2 true candidate).Reads line k rest all) :
    (outside ts indents true candidate).Reads line column
      (entry ++ ('\n' :: spaces k ++ rest)) all := by
  obtain ⟨ns, hopen⟩ := exists_opened ts indents column
  have htokens : (entryTokens [(key, v)]).reverse ++ (opened ts indents column).1
      = (outlineTokens v).reverse
        ++ .value :: .scalar true cs :: .key :: (opened ts indents column).1 := by
    simp [entryTokens, outlineTokens_of_isWord hkey]
  rw [htokens, hopen] at h
  rcases hentry with ⟨hlength, rfl⟩ | rfl
  · rw [List.append_assoc, List.cons_append]
    refine reads_simpleKey hkey.ne_nil hkey.chars hlength hloose hindents
      (atWordEnd_textAt houtline rfl _) ?_
    rw [hopen]
    exact hvalue _ _ _ _ _ _ _ _ _ _ (.simple (by omega)) hrest h
  · simp only [List.append_assoc, List.cons_append]
    refine reads_explicitKey hkey.ne_nil hkey.chars hloose hindents
      (atWordEnd_textAt houtline rfl _) ?_
    rw [hopen]
    exact hvalue _ _ _ _ _ _ _ _ _ _ .explicit hrest h

/-- The lines of a mapping begin with a token. -/
theorem exists_joinLines_eq_cons {es : List (Yaml × Yaml)} (hne : es ≠ [])
    (hkeys : ∀ e ∈ es, ∃ cs, IsWord e.1 cs) (column : Nat) :
    ∃ c cs, isStart c = true ∧ joinLines column (entryLines column es) = c :: cs := by
  obtain ⟨⟨key, v⟩, es, rfl⟩ := List.exists_cons_of_ne_nil hne
  obtain ⟨cs, hkey⟩ := hkeys _ List.mem_cons_self
  obtain ⟨entry, hlines, hentry⟩ := exists_entryLine hkey column v
  obtain ⟨c, ds, rfl, hc⟩ : ∃ c ds, entry = c :: ds ∧ isStart c = true := by
    rcases hentry with ⟨-, rfl⟩ | rfl
    · obtain ⟨c, ds, rfl⟩ := List.exists_cons_of_ne_nil hkey.ne_nil
      exact ⟨c, _, rfl, isStart_of_isWordChar (hkey.chars c List.mem_cons_self)⟩
    · exact ⟨'?', _, rfl, by decide⟩
  rw [hlines]
  cases hmore : entryLines column es with
  | nil => exact ⟨c, ds, hc, rfl⟩
  | cons l lines => exact ⟨c, _, hc, rfl⟩

/-- So they follow the lines of an entry in front. -/
theorem followsAt_joinLines {es : List (Yaml × Yaml)} (hne : es ≠ [])
    (hkeys : ∀ e ∈ es, ∃ cs, IsWord e.1 cs) (column : Nat) (rest : List Char) :
    FollowsAt column column (joinLines column (entryLines column es) ++ rest) := by
  obtain ⟨c, ds, hc, hjoined⟩ := exists_joinLines_eq_cons hne hkeys column
  rw [hjoined]
  rintro d ⟨⟩
  exact ⟨hc, Nat.le_refl column⟩

/-- The entries of a mapping are read one after the other. -/
theorem reads_entries {es : List (Yaml × Yaml)} (hne : es ≠ [])
    (hkeys : ∀ e ∈ es, ∃ cs, IsWord e.1 cs) (houtlines : ∀ e ∈ es, IsOutline depth e.2)
    (hvalues : ∀ e ∈ es, IsReadAsValue e.2) (hloose : Loose candidate)
    (hindents : ∀ n ∈ indents.head?, n ≤ column) (hrest : FollowsAt column k rest)
    (h : ∀ line candidate, Loose candidate →
      (outside ((entryTokens es).reverse ++ (opened ts indents column).1)
        (opened ts indents column).2 true candidate).Reads line k rest all) :
    (outside ts indents true candidate).Reads line column
      (joinLines column (entryLines column es) ++ ('\n' :: spaces k ++ rest)) all := by
  induction es generalizing ts indents candidate line with
  | nil => exact absurd rfl hne
  | cons e es ih =>
    obtain ⟨key, v⟩ := e
    obtain ⟨cs, hkey⟩ := hkeys _ List.mem_cons_self
    have houtline := houtlines _ List.mem_cons_self
    have hvalue := hvalues _ List.mem_cons_self
    obtain ⟨entry, hlines, hentry⟩ := exists_entryLine hkey column v
    rw [hlines]
    cases es with
    | nil => exact reads_entry hkey houtline hvalue hloose hindents hrest hentry h
    | cons e' es =>
      have hrestKeys : ∀ e ∈ e' :: es, ∃ cs, IsWord e.1 cs :=
        fun e he => hkeys e (List.mem_cons_of_mem _ he)
      have hentryText : IsOutlineText entry :=
        isOutlineText_of_mem_entryLines column hkeys
          (fun e he p => isOutlineText_textAt (houtlines e he) p) entry
          (by rw [hlines]; exact List.mem_cons_self)
      have hmore := List.cons_ne_nil e' es
      have hmoreLines : entryLines column (e' :: es) ≠ [] := nofun
      obtain ⟨ns, hopen⟩ := exists_opened ts indents column
      rw [joinLines_cons column hentryText hmoreLines, List.append_assoc, List.append_assoc]
      refine reads_entry hkey houtline hvalue hloose hindents
        (followsAt_joinLines hmore hrestKeys column _) hentry fun line candidate hloose => ?_
      rw [hopen]
      refine ih hmore hrestKeys (fun e he => houtlines e (List.mem_cons_of_mem _ he))
        (fun e he => hvalues e (List.mem_cons_of_mem _ he)) hloose (by simp) ?_
      intro line candidate hloose
      have hread := h line candidate hloose
      rw [hopen] at hread
      simpa [opened, entryTokens] using hread

end

/-- An outline is read as its tokens. -/
theorem isReadAsValue_of_isOutline {depth : Nat} {v : Yaml} (h : IsOutline depth v) :
    IsReadAsValue v := by
  induction h with
  | word h => exact isReadAsValue_word h
  | @mapping depth es hne hkeys _ hvalues ih =>
    intro n p allowed line column k ns ts rest all hp hrest h
    have hread (line : Nat) : (outside ts (n :: ns) true none).Reads line (n + 2)
        (joinLines (n + 2) (entryLines (n + 2) es) ++ ('\n' :: spaces k ++ rest)) all := by
      refine reads_entries hne hkeys hvalues ih loose_none (by simp)
        (fun c hc => ⟨(hrest c hc).1, Nat.le_add_right_of_le (hrest c hc).2⟩)
        fun line candidate hloose => ?_
      have hopened : opened ts (n :: ns) (n + 2)
          = (.blockMappingStart :: ts, (n + 2) :: n :: ns) := if_neg (by simp)
      rw [hopened]
      refine reads_close
        (fun c hc => ⟨(hrest c hc).1, Nat.lt_add_right 1 (Nat.lt_succ_of_le (hrest c hc).2)⟩) ?_
      simpa [outlineTokens] using h line candidate hloose
    obtain ⟨c, ds, hc, hjoined⟩ := exists_joinLines_eq_cons hne hkeys (n + 2)
    obtain ⟨e, es, rfl⟩ := List.exists_cons_of_ne_nil hne
    cases hp with
    | simple hn =>
      have htext : textAt (.value n) none (.mapping (e :: es))
          = '\n' :: spaces (n + 2) ++ joinLines (n + 2) (entryLines (n + 2) (e :: es)) := rfl
      rw [htext, List.append_assoc]
      rw [hjoined] at hread ⊢
      exact reads_line (n + 2) hc (hread (line + 1))
    | explicit => exact reads_space (hread line)

end Lexer

/-! ## Texts -/

theorem isBreak_of_isOutlineChar {c : Char} (h : isOutlineChar c = true) :
    isBreak c = false ∨ c = '\n' := by
  rw [isOutlineChar, Bool.or_eq_true, List.contains_iff_mem] at h
  rcases h with h | h
  · exact .inl (isBreak_of_isWordChar h)
  · have hmarks : [':', '?', ' ', '\n'].all (fun d => !isBreak d || d == '\n') = true := by decide
    simpa using List.all_eq_true.mp hmarks c h

theorem isAllowed_of_isOutlineChar {c : Char} (h : isOutlineChar c = true) :
    isAllowed c = true := by
  rw [isOutlineChar, Bool.or_eq_true, List.contains_iff_mem] at h
  rcases h with h | h
  · have hrange := toNat_of_isWordChar h
    simp [isAllowed]
    omega
  · have hmarks : [':', '?', ' ', '\n'].all isAllowed = true := by decide
    exact List.all_eq_true.mp hmarks c h

theorem unifyBreaks_eq {cs : List Char} (h : ∀ c ∈ cs, isOutlineChar c = true) :
    unifyBreaks cs = cs := by
  induction cs with
  | nil => rfl
  | cons c cs ih =>
    rw [unifyBreaks_cons (isBreak_of_isOutlineChar (h c List.mem_cons_self)),
      ih fun d hd => h d (List.mem_cons_of_mem c hd)]

/-- The text of a mapping that is an outline is cut into its tokens. -/
theorem tokens?_toText_mapping {depth : Nat} {es : List (Yaml × Yaml)}
    (h : IsOutline depth (.mapping es)) :
    tokens? (toText (.mapping es)).toList = some (outlineTokens (.mapping es)) := by
  cases h with
  | word h => cases h.written
  | @mapping depth _ hne hkeys _ hvalues =>
    obtain ⟨e, es, rfl⟩ := List.exists_cons_of_ne_nil hne
    have houtline := isOutlineText_textAt (.mapping hne hkeys ‹_› hvalues) .start
    have htext : (toText (.mapping (e :: es))).toList
        = joinLines 0 (entryLines 0 (e :: es)) ++ ['\n'] := by
      rw [toText, String.toList_ofList, houtline.lineEnd_eq, textAt_start_mapping]
    have hchars : ∀ c ∈ (toText (.mapping (e :: es))).toList, isOutlineChar c = true := by
      rw [htext, List.forall_mem_append]
      exact ⟨houtline.chars, List.forall_mem_singleton.mpr (by decide)⟩
    have hread : (Lexer.outside [] [] true none).Reads 0 0
        (joinLines 0 (entryLines 0 (e :: es)) ++ ('\n' :: spaces 0 ++ []))
        (outlineTokens (.mapping (e :: es))) := by
      refine Lexer.reads_entries hne hkeys hvalues
        (fun e he => Lexer.isReadAsValue_of_isOutline (hvalues e he)) Lexer.loose_none
        (by simp) (by simp [Lexer.FollowsAt]) fun line candidate hloose =>
          Lexer.reads_close (by simp) ?_
      have htokens : outlineTokens (.mapping (e :: es)) = (.blockEnd ::
          ((entryTokens (e :: es)).reverse ++ [.blockMappingStart])).reverse := by
        simp [outlineTokens]
      rw [htokens]
      exact Lexer.reads_end hloose
    rw [tokens?, if_pos (List.all_eq_true.mpr fun c hc => isAllowed_of_isOutlineChar (hchars c hc))]
    simp only [glyphs_of_no_mark (head?_toText_mapping_ne e es), length_placeFrom,
      unifyBreaks_eq hchars]
    rw [htext]
    exact hread

end MachineDriver.Yaml
