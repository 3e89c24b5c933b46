import MachineDriver.Yaml.Document
import MachineDriver.Yaml.Writer

set_option autoImplicit false

/-!
# Words

Values that are written as a word, without quotes, and that are what the word means. A text is one
of them, `isWord_text`, if it is made of letters and digits and does not begin like a number or like
a word that means something else. -/

namespace MachineDriver.Yaml

/-! ## Words -/

/-- A letter or digit of ASCII, or an underscore. -/
def isWordChar (c : Char) : Bool :=
  isNameChar c && c != '-'

section

variable {c : Char}

/-- A character of a class is none that does not belong to it. -/
theorem ne_of_class {p : Char → Bool} {d : Char} (hc : p c = true) (hd : p d = false) : c ≠ d := by
  rintro rfl
  rw [hc] at hd
  cases hd

theorem contains_eq_false_of_class {p : Char → Bool} {marks : List Char} (hc : p c = true)
    (hmarks : marks.any p = false) : marks.contains c = false := by
  rw [← Bool.not_eq_true, List.contains_iff_mem]
  exact fun hmem => List.any_eq_false.mp hmarks c hmem hc

theorem toNat_of_isWordChar (h : isWordChar c = true) : 0x30 ≤ c.toNat ∧ c.toNat ≤ 0x7A := by
  simp only [isWordChar, isNameChar, Bool.and_eq_true, Bool.or_eq_true, decide_eq_true_eq] at h
  rcases h with ⟨(((h | h) | h) | rfl) | rfl, hdash⟩
  · omega
  · omega
  · omega
  · decide
  · exact absurd hdash (by decide)

theorem isBreak_of_isWordChar (h : isWordChar c = true) : isBreak c = false := by
  rw [← Bool.not_eq_true]
  intro hbreak
  simp only [isBreak, Bool.or_eq_true, decide_eq_true_eq, or_assoc] at hbreak
  rcases hbreak with rfl | rfl | rfl | rfl | rfl <;> exact absurd h (by decide)

end

/-- The characters of a value that is written as it is, without quotes. -/
def plainText? : Yaml → Option (List Char)
  | .text s => if styleOf s.toList = .plain then some s.toList else none
  | .sequence _ => none
  | .mapping _ => none
  | .tagged .. => none
  | v => some (word v)

/-- A value that is written as a word and that is what the word means. -/
structure IsWord (v : Yaml) (cs : List Char) : Prop where
  written : plainText? v = some cs
  ne_nil : cs ≠ []
  chars : ∀ c ∈ cs, isWordChar c = true
  means : ofPlain? cs = some v

variable {v : Yaml} {cs : List Char}

theorem textAt_of_plainText? (h : plainText? v = some cs) (p : Place) :
    textAt p none v = p.blank ++ cs := by
  cases v with
  | text s =>
    obtain ⟨hstyle, hcs⟩ := Option.ite_none_right_eq_some.mp h
    cases hcs
    rw [textAt, scalarText, hstyle]
    rfl
  | sequence vs => cases h
  | mapping es => cases h
  | tagged t v => cases h
  | _ =>
    cases h
    rfl

theorem length_le_length_encodeChars (cs : List Char) :
    cs.length ≤ (Text.Utf8.encodeChars cs).length := by
  induction cs with
  | nil => exact Nat.le_refl 0
  | cons c cs ih =>
    have hpos := c.utf8Size_pos
    rw [Text.Utf8.encodeChars] at ih ⊢
    rw [List.flatMap_cons, List.length_append, List.length_cons, String.length_utf8EncodeChar]
    omega

/-- A word that is a key comes before its value on the same line if it is not too long. -/
theorem simpleKey?_of_plainText? (h : plainText? v = some cs) :
    simpleKey? none v = none ∨ simpleKey? none v = some cs ∧ cs.length ≤ 128 := by
  have hword (v : Yaml) : (if 0 + (word v).length ≤ 128 then some (word v) else none) = none
      ∨ (if 0 + (word v).length ≤ 128 then some (word v) else none) = some (word v)
        ∧ (word v).length ≤ 128 := by
    split
    · exact .inr ⟨rfl, by omega⟩
    · exact .inl rfl
  cases v with
  | text s =>
    obtain ⟨hstyle, hcs⟩ := Option.ite_none_right_eq_some.mp h
    cases hcs
    have hsize := length_le_length_encodeChars s.toList
    rw [← Text.Utf8.encode] at hsize
    simp only [simpleKey?, scalarText, hstyle]
    split
    · exact .inl rfl
    · split
      · exact .inr ⟨rfl, by omega⟩
      · exact .inl rfl
  | sequence vs => cases h
  | mapping es => cases h
  | tagged t v => cases h
  | null =>
    cases h
    exact hword .null
  | bool b =>
    cases h
    exact hword (.bool b)
  | integer n =>
    cases h
    exact hword (.integer n)
  | decimal x =>
    cases h
    exact hword (.decimal x)

/-! ## Words that are texts -/

/-- The characters that a plain scalar begins with if it means anything but a text. -/
def isValueStart (c : Char) : Bool :=
  Text.isDigit c || ['~', 'n', 'N', 't', 'T', 'f', 'F', '+', '-', '.'].contains c

section

variable {c : Char} {cs : List Char}

/-- The words that mean something but a text. -/
def valueWords : List String :=
  ["null", "Null", "NULL", "~", "true", "True", "TRUE", "false", "False", "FALSE", ".inf", ".Inf",
    ".INF", "-.inf", "-.Inf", "-.INF", ".nan", ".NaN", ".NAN"]

theorem ofList_cons_ne (hc : isValueStart c = false) (cs : List Char) :
    ∀ s ∈ valueWords, String.ofList (c :: cs) ≠ s := by
  have hstart : valueWords.all (fun s => s.toList.head?.all isValueStart) = true := by decide
  rintro s hs rfl
  have hhead := List.all_eq_true.mp hstart _ hs
  rw [String.toList_ofList, List.head?_cons, Option.all_some, hc] at hhead
  exact absurd hhead Bool.false_ne_true

theorem splitSign_cons (h : isValueStart c = false) : splitSign (c :: cs) = (false, c :: cs) := by
  rw [splitSign.eq_def]
  split
  · rename_i heq
    cases heq
    exact absurd h (by decide)
  · rename_i heq
    cases heq
    exact absurd h (by decide)
  · rfl

theorem isZeroLed_cons (h : isValueStart c = false) : isZeroLed (c :: cs) = false := by
  rw [isZeroLed, splitSign_cons h]
  split
  · rename_i heq
    cases heq
    exact absurd h (by decide)
  · rfl

theorem magnitude?_cons (h : isValueStart c = false) : magnitude? (c :: cs) = none := by
  have hdigit : Text.digitValue? 10 c = none := by
    simp only [isValueStart, Text.isDigit, Bool.or_eq_false_iff, Bool.and_eq_false_iff,
      decide_eq_false_iff_not] at h
    simp only [Text.digitValue?]
    repeat' split
    all_goals first | rfl | omega
  rw [magnitude?.eq_def]
  split
  · rename_i heq
    cases heq
    exact absurd h (by decide)
  · rename_i heq
    cases heq
    exact absurd h (by decide)
  · rename_i heq
    cases heq
    exact absurd h (by decide)
  · simp [Text.readNumeral?, Text.readDigits?, hdigit]

theorem readInteger_cons (h : isValueStart c = false) : readInteger (c :: cs) = .none := by
  simp [readInteger, isZeroLed_cons h, splitSign_cons h, magnitude?_cons h]

theorem readDecimal?_cons (h : isValueStart c = false) : readDecimal? (c :: cs) = none := by
  have hdigit : Text.isDigit c = false := by
    rw [isValueStart, Bool.or_eq_false_iff] at h
    exact h.1
  have hdigits : splitDigits (c :: cs) = ([], c :: cs) := by
    simp [splitDigits, hdigit]
  have hpoint : '.' ≠ c := ne_of_class (by decide) h
  simp [readDecimal?, splitSign_cons h, hdigits, hpoint.symm]

theorem readFloat?_cons (h : isValueStart c = false) : readFloat? (c :: cs) = none := by
  have hplus : '+' ≠ c := ne_of_class (by decide) h
  have hword := ofList_cons_ne h cs
  simp only [valueWords, List.forall_mem_cons] at hword
  simp [readFloat?, hplus.symm, hword, readDecimal?_cons h, -String.ofList_cons]

/-- Plain characters that begin with no such character mean the text of them. -/
theorem ofPlain?_cons (h : isValueStart c = false) :
    ofPlain? (c :: cs) = some (.text (String.ofList (c :: cs))) := by
  have hword := ofList_cons_ne h cs
  simp only [valueWords, List.forall_mem_cons] at hword
  have hnull : isNullWord (c :: cs) = false := by
    simp [isNullWord, hword, -String.ofList_cons]
  have hbool : boolOfWord? (c :: cs) = none := by
    simp [boolOfWord?, hword, -String.ofList_cons]
  simp [ofPlain?, hnull, hbool, readInteger_cons h, isZeroLed_cons h, readFloat?_cons h]

theorem hasPair_eq_false {first second : Char → Bool} (h : ∀ c ∈ cs, first c = false) :
    hasPair first second cs = false := by
  fun_induction hasPair first second cs with
  | case1 c d cs ih =>
    simp [h c List.mem_cons_self, ih fun e he => h e (List.mem_cons_of_mem c he)]
  | case2 => rfl

theorem holdsMark_eq_false (h : ∀ c ∈ cs, isWordChar c = true) (wordEnded : Bool) :
    holdsMark wordEnded cs = false := by
  induction cs generalizing wordEnded with
  | nil => rfl
  | cons c cs ih =>
    have hc := h c List.mem_cons_self
    simp [holdsMark, ne_of_class hc (d := ':') (by decide),
      ne_of_class hc (d := '#') (by decide), ih fun d hd => h d (List.mem_cons_of_mem c hd)]

theorem hasMarks_eq_false (h : ∀ c ∈ cs, isWordChar c = true) : hasMarks cs = false := by
  cases cs with
  | nil => rfl
  | cons c cs =>
    have hc := h c List.mem_cons_self
    have hmarks : "#,[]\x7b\x7d&*!|>\x27\"%@\x60".toList.contains c = false :=
      contains_eq_false_of_class hc (by decide)
    rw [hasMarks, hmarks, holdsMark_eq_false fun d hd => h d (List.mem_cons_of_mem c hd)]
    have hdash : c ≠ '-' := ne_of_class hc (by decide)
    have hpoint : c ≠ '.' := ne_of_class hc (by decide)
    simp [List.isPrefixOf, hdash, hdash.symm, hpoint.symm, ne_of_class hc (d := '?') (by decide),
      ne_of_class hc (d := ':') (by decide)]

theorem allowsPlain_of_isWordChar (h : ∀ c ∈ cs, isWordChar c = true) :
    allowsPlain cs = true := by
  have hspace : ∀ c ∈ cs, isSpace c = false := fun c hc => by
    simp [isSpace, ne_of_class (h c hc) (d := ' ') (by decide)]
  have hshown : ∀ c ∈ cs, isShown c = true := fun c hc => by
    have hrange := toNat_of_isWordChar (h c hc)
    simp [isShown]
    omega
  have hescapes : needsEscapes cs = false := by
    rw [needsEscapes, hasPair_eq_false hspace, Bool.or_false, List.any_eq_false]
    exact fun c hc => by simp [hshown c hc]
  have hmultiline : isMultiline cs = false := by
    rw [isMultiline, List.any_eq_false]
    exact fun c hc => by simp [isBreak_of_isWordChar (h c hc)]
  have hfirst : cs.head?.any isSpace = false := by
    rw [Option.any_eq_false]
    exact fun c hc => by simp [hspace c (List.mem_of_mem_head? hc)]
  have hlast : cs.getLast?.any isSpace = false := by
    rw [Option.any_eq_false]
    exact fun c hc => by simp [hspace c (List.mem_of_mem_getLast? hc)]
  rw [allowsPlain, hescapes, hmultiline, hasMarks_eq_false h, hfirst, hlast]
  rfl

/-- A word that begins with no such character is written as it is. -/
theorem isWord_text {s : String} (hs : s.toList = c :: cs) (hc : isValueStart c = false)
    (hchars : ∀ d ∈ c :: cs, isWordChar d = true) : IsWord (.text s) (c :: cs) where
  written := by
    have hbreak : '\n' ∉ c :: cs := fun hmem => absurd (hchars _ hmem) (by decide)
    have hstyle : styleOf s.toList = .plain := by
      rw [hs, styleOf, if_neg (by simpa using hbreak)]
      simp [allowsPlain_of_isWordChar hchars, isAmbiguous, isZeroLed_cons hc, ofPlain?_cons hc]
    rw [plainText?, hstyle, if_pos rfl, hs]
  ne_nil := List.cons_ne_nil c cs
  chars := hchars
  means := by
    rw [ofPlain?_cons hc, ← hs, String.ofList_toList]

end

end MachineDriver.Yaml
