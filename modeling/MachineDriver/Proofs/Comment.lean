import MachineDriver.Proofs.LineShift
import MachineDriver.Yaml.Document
import MachineDriver.Yaml.Writer

set_option autoImplicit false

/-!
# Comments before a text

A comment on a line of its own before a text does not change what the text means, `ofText?_comment`:
the reader passes over the comment and goes on as at the start, one line further down. Only a byte
order mark, which has no meaning but at the start, must not follow it. The text of a mapping never
begins with one, `head?_toText_mapping_ne`. -/

namespace MachineDriver.Yaml

/-- The character that at the start of a text says how it is encoded. -/
def orderMark : Char := '\uFEFF'

namespace Lexer

/-- More steps than are needed change nothing. -/
theorem run_mono {fuel : Nat} {l : Lexer} {gs : List Glyph} {ts : List Token} (more : Nat)
    (h : run fuel l gs = some ts) : run (fuel + more) l gs = some ts := by
  induction fuel generalizing l gs with
  | zero => cases h
  | succ fuel ih =>
    rw [Nat.add_right_comm]
    rcases hgap : skipGap l.inFlow false l.keyAllowed gs with ⟨allowed, _ | ⟨g, rest⟩⟩
    · rw [run, hgap] at h ⊢
      exact h
    · rw [run_of_skipGap _ hgap] at h ⊢
      obtain ⟨step, hstep, h⟩ := Option.bind_eq_some_iff.mp h
      rw [hstep]
      exact ih h

/-- A reader goes on in the same way where it is left with the same after blanks and comments. -/
theorem run_congr {fuel : Nat} {l : Lexer} {gs hs : List Glyph}
    (h : skipGap l.inFlow false l.keyAllowed gs = skipGap l.inFlow false l.keyAllowed hs) :
    run fuel l gs = run fuel l hs := by
  cases fuel with
  | zero => rfl
  | succ fuel => rw [run, run, h]

/-- A reader that is at a place where a key may begin passes over a comment. -/
theorem run_comment {cs : List Char} (h : cs.all (fun c => !isBreak c) = true) (fuel line : Nat)
    (rest : List Char) :
    run fuel {} (placeFrom line 0 ('#' :: cs ++ '\n' :: rest))
      = run fuel {} (placeFrom (line + 1) 0 rest) := by
  have hskip : ∀ column, skipGap false true true (placeFrom line column (cs ++ '\n' :: rest))
      = skipGap false false true (placeFrom (line + 1) 0 rest) := by
    induction cs with
    | nil => exact fun _ => rfl
    | cons c cs ih =>
      intro column
      rw [List.all_cons, Bool.and_eq_true, Bool.not_eq_true'] at h
      rw [List.cons_append, placeFrom, h.1, skipGap, h.1]
      exact ih h.2 (column + 1)
  exact run_congr (hskip 1)

end Lexer

/-! ## Characters -/

theorem unifyBreaks_cons {c : Char} (h : isBreak c = false ∨ c = '\n') (cs : List Char) :
    unifyBreaks (c :: cs) = c :: unifyBreaks cs := by
  rcases h with h | rfl
  · simp only [isBreak, Bool.or_eq_false_iff, decide_eq_false_iff_not] at h
    rw [unifyBreaks.eq_3 _ _ fun _ hr _ => h.1.1.1.2 hr]
    simp [h]
  · rfl

theorem unifyBreaks_line {cs : List Char} (h : cs.all (fun c => !isBreak c) = true)
    (rest : List Char) : unifyBreaks (cs ++ '\n' :: rest) = cs ++ '\n' :: unifyBreaks rest := by
  induction cs with
  | nil => exact unifyBreaks_cons (.inr rfl) rest
  | cons c cs ih =>
    rw [List.all_cons, Bool.and_eq_true, Bool.not_eq_true'] at h
    rw [List.cons_append, unifyBreaks_cons (.inl h.1), ih h.2, List.cons_append]

/-- Without a byte order mark all characters of a text count. -/
theorem glyphs_of_no_mark {cs : List Char} (h : cs.head? ≠ some orderMark) :
    glyphs cs = placeFrom 0 0 (unifyBreaks cs) := by
  cases cs with
  | nil => rfl
  | cons c cs =>
    rw [List.head?_cons, ne_eq, Option.some.injEq] at h
    obtain ⟨d, ds, hunified, hd⟩ :
        ∃ d ds, unifyBreaks (c :: cs) = d :: ds ∧ d ≠ orderMark := by
      rw [unifyBreaks.eq_def]
      split
      · rename_i heq
        cases heq
      · exact ⟨_, _, rfl, by decide⟩
      · rename_i heq
        cases heq
        refine ⟨_, _, rfl, ?_⟩
        split
        · decide
        · exact h
    rw [glyphs, hunified, placeFrom]
    exact if_neg hd

theorem length_placeFrom (line column : Nat) (cs : List Char) :
    (placeFrom line column cs).length = cs.length := by
  induction cs generalizing line column with
  | nil => rfl
  | cons c cs ih =>
    rw [placeFrom, List.length_cons, List.length_cons]
    split <;> rw [ih]

/-! ## Texts -/

/-- A comment on a line of its own before a text leaves its tokens. -/
theorem tokens?_comment {cs rest : List Char} {ts : List Token}
    (hline : cs.all (fun c => !isBreak c) = true) (hallowed : cs.all isAllowed = true)
    (hmark : rest.head? ≠ some orderMark) (h : tokens? rest = some ts) :
    tokens? ('#' :: cs ++ '\n' :: rest) = some ts := by
  have hall : ('#' :: cs ++ '\n' :: rest).all isAllowed = rest.all isAllowed := by
    rw [List.all_append, List.all_cons, List.all_cons, hallowed]
    rfl
  have hhead : ('#' :: cs ++ '\n' :: rest).head? ≠ some orderMark := by
    simp [orderMark]
  have hcomment : ('#' :: cs).all (fun c => !isBreak c) = true := hline
  rw [tokens?] at h ⊢
  rw [hall]
  by_cases hrest : rest.all isAllowed = true
  · rw [if_pos hrest] at h ⊢
    simp only [glyphs_of_no_mark hmark, glyphs_of_no_mark hhead, length_placeFrom,
      unifyBreaks_line hcomment] at h ⊢
    rw [Lexer.run_comment hline, placeFrom_add 1 0 0]
    have hlength : ('#' :: cs ++ '\n' :: unifyBreaks rest).length + 1
        = (unifyBreaks rest).length + 1 + (cs.length + 2) := by
      simp only [List.length_append, List.length_cons]
      omega
    have hlowered := Lexer.run_lower 1 ((unifyBreaks rest).length + 1 + (cs.length + 2)) {}
      (placeFrom 0 0 (unifyBreaks rest))
    rw [hlength]
    exact hlowered.trans (Lexer.run_mono (cs.length + 2) h)
  · rw [if_neg hrest] at h
    cases h

/-- **A comment before a text does not change what the text means.** -/
theorem ofText?_comment {comment text : String} {v : Yaml}
    (hline : comment.toList.all (fun c => !isBreak c) = true)
    (hallowed : comment.toList.all isAllowed = true)
    (hmark : text.toList.head? ≠ some orderMark) (h : ofText? text = some v) :
    ofText? ("#" ++ comment ++ "\n" ++ text) = some v := by
  obtain ⟨ns, hns⟩ : ∃ ns, nodes? text = some ns := by
    cases hnone : nodes? text with
    | none =>
      rw [ofText?, documents?, hnone] at h
      cases h
    | some ns => exact ⟨ns, rfl⟩
  obtain ⟨ts, hts, -⟩ := Option.bind_eq_some_iff.mp hns
  have hcs : ("#" ++ comment ++ "\n" ++ text).toList
      = '#' :: comment.toList ++ '\n' :: text.toList := by
    simp
  have hsame : nodes? ("#" ++ comment ++ "\n" ++ text) = nodes? text := by
    rw [nodes?, nodes?, hcs, tokens?_comment hline hallowed hmark hts, hts]
  rw [ofText?, documents?, hsame]
  exact h

/-! ## Written texts -/

theorem orderMark_notMem_exponentText (n : Int) : orderMark ∉ Binary64.exponentText n := by
  have hdigits : orderMark ∉ Text.decimal n.natAbs := Text.notMem_decimal (by decide) n.natAbs
  rw [Binary64.exponentText, List.mem_cons, not_or]
  refine ⟨by decide, ?_⟩
  split
  · exact List.not_mem_cons_of_ne_of_not_mem (by decide) hdigits
  · exact hdigits

theorem orderMark_notMem_decimalText (digits : Nat) (exponent : Int) :
    orderMark ∉ Binary64.decimalText digits exponent := by
  have hdigits : orderMark ∉ Text.decimal digits := Text.notMem_decimal (by decide) digits
  have hpower := orderMark_notMem_exponentText
  have hpoint : orderMark ≠ '.' := by decide
  have hzero : orderMark ≠ '0' := by decide
  simp only [Binary64.decimalText]
  split
  · simp [hdigits, hpoint, hzero]
  · split
    · intro h
      rcases List.mem_append.mp h with h | h
      · exact hdigits (List.mem_of_mem_take h)
      · exact hdigits (List.mem_of_mem_drop ((List.mem_cons.mp h).resolve_left hpoint))
    · split
      · simp [hdigits, hpoint, hzero]
      · revert hdigits
        rcases Text.decimal digits with _ | ⟨d, _ | ⟨d', ds⟩⟩
        · simp
        · simp [hpower]
        · simp [hpower, hpoint]

theorem orderMark_notMem_finiteText (negative : Bool) (significand : Nat) (exponent : Int) :
    orderMark ∉ Binary64.finiteText negative significand exponent := by
  have hdigits : orderMark ∉ if significand = 0 then ['0', '.', '0']
      else Binary64.decimalText (Binary64.shortest significand exponent).1
        (Binary64.shortest significand exponent).2 := by
    split
    · decide
    · exact orderMark_notMem_decimalText _ _
  cases negative with
  | false => exact hdigits
  | true => exact List.not_mem_cons_of_ne_of_not_mem (by decide) hdigits

theorem orderMark_notMem_word (v : Yaml) : orderMark ∉ word v := by
  have hnull : orderMark ∉ "null".toList := by decide
  cases v with
  | bool b => cases b <;> decide
  | integer n =>
    have hdigits : orderMark ∉ Text.decimal n.natAbs := Text.notMem_decimal (by decide) n.natAbs
    change orderMark ∉ if n < 0 then '-' :: Text.decimal n.natAbs else Text.decimal n.natAbs
    split
    · exact List.not_mem_cons_of_ne_of_not_mem (by decide) hdigits
    · exact hdigits
  | decimal x =>
    cases x with
    | finite s m e => exact orderMark_notMem_finiteText s m e
    | infinite s => cases s <;> decide
    | nan => decide
  | _ => exact hnull

/-- A text that begins with a byte order mark is written with an escape. -/
theorem head?_scalarText_ne (column : Nat) (cs : List Char) :
    (scalarText column cs).head? ≠ some orderMark := by
  rw [scalarText]
  cases hstyle : styleOf cs with
  | single => simp [singleText, orderMark]
  | double => simp [doubleText, orderMark]
  | literal => simp [literalText, orderMark]
  | plain =>
    have hplain : allowsPlain cs = true := by
      simp only [styleOf] at hstyle
      split at hstyle
      · split at hstyle <;> cases hstyle
      · split at hstyle
        · rename_i h
          exact (Bool.and_eq_true_iff.mp h).1
        · split at hstyle <;> cases hstyle
    intro hhead
    have hshown : isShown orderMark = true := by
      simp only [allowsPlain, needsEscapes, Bool.not_eq_true', Bool.or_eq_false_iff,
        List.any_eq_false] at hplain
      simpa using hplain.1.1.1.1.1 orderMark (List.mem_of_mem_head? hhead)
    exact absurd hshown (by decide)

theorem head?_tagText (tag : String) : (tagText tag).head? = some '!' := by
  have hmarked : ∃ cs, markedTag tag = '!' :: cs := by
    rw [markedTag]
    split <;> exact ⟨_, rfl⟩
  obtain ⟨cs, hcs⟩ := hmarked
  rw [tagText, hcs]
  cases cs <;> rfl

/-- A short key begins with its tag or with what is written of it. -/
theorem head?_shortKey_ne (tag : Option String) {size : Nat} {written key : List Char}
    (hw : written.head? ≠ some orderMark)
    (h : (if (match tag with
        | some t => (Text.Utf8.encodeChars (markedTag t)).length
        | none => 0) + size ≤ 128
      then some ((match tag with
        | some t => tagText t ++ [' ']
        | none => []) ++ written) else none) = some key) :
    key.head? ≠ some orderMark := by
  obtain ⟨-, hkey⟩ := Option.ite_none_right_eq_some.mp h
  cases hkey
  cases tag with
  | none => exact hw
  | some t => simp [head?_tagText, orderMark]

theorem head?_simpleKey?_ne {tag : Option String} {v : Yaml} {key : List Char}
    (h : simpleKey? tag v = some key) : key.head? ≠ some orderMark := by
  have hword (v : Yaml) : (word v).head? ≠ some orderMark := fun h =>
    orderMark_notMem_word v (List.mem_of_mem_head? h)
  have hbrackets : ("[]".toList).head? ≠ some orderMark := by decide
  have hbraces : ("\x7b\x7d".toList).head? ≠ some orderMark := by decide
  match v with
  | .tagged t v =>
    rw [simpleKey?] at h
    exact head?_simpleKey?_ne h
  | .text s =>
    simp only [simpleKey?] at h
    split at h
    · cases h
    · exact head?_shortKey_ne tag (head?_scalarText_ne 0 s.toList) h
  | .sequence [] => exact head?_shortKey_ne tag hbrackets h
  | .mapping [] => exact head?_shortKey_ne tag hbraces h
  | .sequence (_ :: _) => cases h
  | .mapping (_ :: _) => cases h
  | .null => exact head?_shortKey_ne tag (hword _) h
  | .bool _ => exact head?_shortKey_ne tag (hword _) h
  | .integer _ => exact head?_shortKey_ne tag (hword _) h
  | .decimal _ => exact head?_shortKey_ne tag (hword _) h

theorem head?_joinLines (column : Nat) {line : List Char} (lines : List (List Char))
    (h : line ≠ []) : (joinLines column (line :: lines)).head? = line.head? := by
  obtain ⟨c, cs, rfl⟩ := List.exists_cons_of_ne_nil h
  cases lines <;> rfl

theorem textAt_start_mapping (e : Yaml × Yaml) (es : List (Yaml × Yaml)) :
    textAt .start none (.mapping (e :: es)) = joinLines 0 (entryLines 0 (e :: es)) :=
  rfl

/-- The text of a mapping begins with its first key or with a question mark. -/
theorem head?_toText_mapping_ne (e : Yaml × Yaml) (es : List (Yaml × Yaml)) :
    (toText (.mapping (e :: es))).toList.head? ≠ some orderMark := by
  obtain ⟨k, v⟩ := e
  obtain ⟨c, cs, hlines, hc⟩ : ∃ c cs, entryLines 0 ((k, v) :: es) = (c :: cs) :: entryLines 0 es
      ∧ c ≠ orderMark := by
    rw [entryLines]
    cases hkey : simpleKey? none k with
    | none => exact ⟨_, _, rfl, by decide⟩
    | some key =>
      have hfirst := head?_simpleKey?_ne hkey
      cases key with
      | nil => exact ⟨_, _, rfl, by decide⟩
      | cons c cs => exact ⟨_, _, rfl, fun hc => hfirst (congrArg some hc)⟩
  have hhead := head?_joinLines 0 (entryLines 0 es) (List.cons_ne_nil c cs)
  rw [toText, String.toList_ofList, textAt_start_mapping, hlines, List.head?_append, hhead]
  simpa using hc

end MachineDriver.Yaml
