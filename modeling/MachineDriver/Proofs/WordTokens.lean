import MachineDriver.Proofs.Comment
import MachineDriver.Proofs.Words

set_option autoImplicit false

/-!
# The tokens of words and keys

What a reader outside of brackets does with words, keys that are words, and the ends of collections.
The statements say what is left to do: the characters of a part are read, `Lexer.Reads`, if those
after it are, from the state in which the part leaves the reader. -/

namespace MachineDriver.Yaml

namespace Lexer

/-- A reader outside of brackets: its tokens, the last first, and the columns of the open
collections. -/
def outside (ts : List Token) (indents : List Nat) (allowed : Bool)
    (candidate : Option Candidate) : Lexer where
  tokens := ts
  count := ts.length
  indents := indents
  keyAllowed := allowed
  candidate := candidate

section

variable (ts : List Token) (indents : List Nat) (allowed : Bool) (candidate : Option Candidate)

@[simp] theorem inFlow_outside : (outside ts indents allowed candidate).inFlow = false := rfl

@[simp] theorem count_outside : (outside ts indents allowed candidate).count = ts.length := rfl

@[simp] theorem indents_outside : (outside ts indents allowed candidate).indents = indents := rfl

@[simp] theorem keyAllowed_outside : (outside ts indents allowed candidate).keyAllowed = allowed :=
  rfl

@[simp] theorem candidate_outside : (outside ts indents allowed candidate).candidate = candidate :=
  rfl

end

/-- Characters from a place on give all tokens of a text. A step takes at least one character. -/
def Reads (l : Lexer) (line column : Nat) (cs : List Char) (all : List Token) : Prop :=
  run (cs.length + 1) l (placeFrom line column cs) = some all

/-- A candidate that may be given up. -/
def Loose (candidate : Option Candidate) : Prop :=
  ∀ c ∈ candidate, c.required = false

theorem loose_none : Loose none :=
  nofun

/-- A character that begins a token wherever it stands. -/
def isStart (c : Char) : Bool :=
  isWordChar c || c = ':' || c = '?'

variable {l l' : Lexer} {line column : Nat} {c : Char} {cs rest : List Char} {all : List Token}

/-! ## Gaps -/

theorem isBreak_of_isStart (h : isStart c = true) : isBreak c = false := by
  rw [isStart, Bool.or_eq_true, Bool.or_eq_true, decide_eq_true_eq, decide_eq_true_eq] at h
  rcases h with (h | rfl) | rfl
  · exact isBreak_of_isWordChar h
  · decide
  · decide

theorem placeFrom_cons_of_isStart (hc : isStart c = true) (line column : Nat) (cs : List Char) :
    placeFrom line column (c :: cs) = ⟨c, line, column⟩ :: placeFrom line (column + 1) cs := by
  rw [placeFrom, isBreak_of_isStart hc]
  rfl

theorem skipGap_start (hc : isStart c = true) (allowed : Bool) (line column : Nat)
    (cs : List Char) : skipGap false false allowed (placeFrom line column (c :: cs))
      = (allowed, ⟨c, line, column⟩ :: placeFrom line (column + 1) cs) := by
  rw [placeFrom_cons_of_isStart hc]
  simp [skipGap, isBreak_of_isStart hc, ne_of_class hc (d := ' ') (by decide),
    ne_of_class hc (d := '\t') (by decide), ne_of_class hc (d := '#') (by decide)]

theorem skipGap_spaces (flow allowed : Bool) (n line column : Nat) (cs : List Char) :
    skipGap flow false allowed (placeFrom line column (spaces n ++ cs))
      = skipGap flow false allowed (placeFrom line (column + n) cs) := by
  induction n generalizing column with
  | zero => rfl
  | succ n ih => exact (ih (column + 1)).trans (by rw [Nat.add_assoc, Nat.add_comm 1 n])

theorem skipGap_lineFeed (allowed : Bool) (line column : Nat) (cs : List Char) :
    skipGap false false allowed (placeFrom line column ('\n' :: cs))
      = skipGap false false true (placeFrom (line + 1) 0 cs) := by
  rw [placeFrom, skipGap]
  simp [isBreak]

/-! ## Steps -/

theorem reads_of_run (fuel : Nat) (h : run fuel l (placeFrom line column cs) = some all)
    (hfuel : fuel ≤ cs.length + 1) : l.Reads line column cs all := by
  obtain ⟨more, hmore⟩ := Nat.exists_eq_add_of_le hfuel
  rw [Reads, hmore]
  exact run_mono more h

theorem reads_space (h : l.Reads line (column + 1) cs all) :
    l.Reads line column (' ' :: cs) all := by
  have hrun : run (cs.length + 1) l (placeFrom line column (' ' :: cs)) = some all :=
    (run_congr (skipGap_spaces _ _ 1 line column cs)).trans h
  exact reads_of_run _ hrun (by simp)

/-- On the next line a key may begin. -/
theorem reads_line {ts : List Token} {indents : List Nat} {allowed : Bool}
    {candidate : Option Candidate} (n : Nat) (hc : isStart c = true)
    (h : (outside ts indents true candidate).Reads (line + 1) n (c :: cs) all) :
    (outside ts indents allowed candidate).Reads line column ('\n' :: spaces n ++ c :: cs) all := by
  have hgap (allowed : Bool) :
      skipGap false false allowed (placeFrom line column ('\n' :: spaces n ++ c :: cs))
        = (true, ⟨c, line + 1, n⟩ :: placeFrom (line + 1) (n + 1) cs) := by
    rw [List.cons_append, skipGap_lineFeed, skipGap_spaces, Nat.zero_add, skipGap_start hc]
  refine reads_of_run ((c :: cs).length + 1) (Eq.trans ?_ h) (by simp; omega)
  rw [run, run, inFlow_outside, inFlow_outside, skipGap_start hc, hgap]
  rfl

/-! ## Words -/

theorem isStart_of_isWordChar (h : isWordChar c = true) : isStart c = true := by
  rw [isStart, h]
  rfl

theorem isWhite_of_isStart (h : isStart c = true) : isWhite c = false := by
  simp [isWhite, ne_of_class h (d := ' ') (by decide), ne_of_class h (d := '\t') (by decide)]

theorem readPlain_word (h : ∀ c ∈ cs, isWordChar c = true) (indent line column : Nat)
    (done rest : List Char) :
    readPlain false indent done none (placeFrom line column (cs ++ rest))
      = readPlain false indent (cs.reverse ++ done) none
          (placeFrom line (column + cs.length) rest) := by
  induction cs generalizing column done with
  | nil => rfl
  | cons c cs ih =>
    have hc := h c List.mem_cons_self
    have hstart := isStart_of_isWordChar hc
    rw [List.cons_append, placeFrom_cons_of_isStart hstart, readPlain]
    simp [isBreak_of_isStart hstart, isWhite_of_isStart hstart,
      ne_of_class hc (d := ':') (by decide), Gap.text,
      ih fun d hd => h d (List.mem_cons_of_mem c hd)]
    rw [Nat.add_assoc, Nat.add_comm 1]

/-- A colon ends a word if a blank or the end of the line follows. -/
theorem readPlain_colon (indent line column : Nat) (done : List Char)
    (h : atWordEnd (placeFrom line (column + 1) rest) = true) :
    readPlain false indent done none (placeFrom line column (':' :: rest))
      = some ⟨done.reverse, false, placeFrom line column (':' :: rest)⟩ := by
  have hcolon : isStart ':' = true := by decide
  rw [placeFrom_cons_of_isStart hcolon, readPlain]
  simp [isBreak_of_isStart hcolon, isWhite_of_isStart hcolon, h, Gap.isBroken]

/-- The indentation of a line adds nothing to the gap before it. -/
theorem readPlain_spaces (indent line column n : Nat) (done rest : List Char) :
    readPlain false indent done (some ⟨[], ['\n'], false⟩)
        (placeFrom line column (spaces n ++ rest))
      = readPlain false indent done (some ⟨[], ['\n'], false⟩)
          (placeFrom line (column + n) rest) := by
  induction n generalizing column with
  | zero => rfl
  | succ n ih =>
    have hspace : placeFrom line column (spaces (n + 1) ++ rest)
        = ⟨' ', line, column⟩ :: placeFrom line (column + 1) (spaces n ++ rest) := rfl
    rw [hspace, readPlain]
    simp [isBreak, isWhite, Gap.addWhite, Gap.isBroken, ih]
    rw [Nat.add_assoc, Nat.add_comm 1]

/-- A scalar ends before a line that is not indented enough to go on with it. -/
theorem readPlain_line (indent line column n : Nat) (done : List Char)
    (h : ∀ c ∈ rest.head?, isStart c = true ∧ n < indent) :
    readPlain false indent done none (placeFrom line column ('\n' :: spaces n ++ rest))
      = some ⟨done.reverse, true, placeFrom (line + 1) n rest⟩ := by
  have hline : readPlain false indent done none (placeFrom line column ('\n' :: spaces n ++ rest))
      = readPlain false indent done (some ⟨[], ['\n'], false⟩)
          (placeFrom (line + 1) 0 (spaces n ++ rest)) := by
    rw [List.cons_append, placeFrom, readPlain]
    simp [isBreak, Gap.addBreak]
  rw [hline, readPlain_spaces, Nat.zero_add]
  cases rest with
  | nil => rfl
  | cons c cs =>
    obtain ⟨hc, hn⟩ := h c rfl
    rw [placeFrom_cons_of_isStart hc, readPlain]
    simp [isBreak_of_isStart hc, isWhite_of_isStart hc, hn, Gap.isBroken]

theorem afterMarker?_eq_none {g : Glyph} {d : Char} (h : g.char ≠ d) (gs : List Glyph) :
    afterMarker? d (g :: gs) = none := by
  rw [afterMarker?.eq_def]
  split
  · rename_i heq
    cases heq
    simp [h]
  · rfl

/-- A character of a word begins a plain scalar. -/
theorem readToken?_of_isWordChar {g : Glyph} (h : isWordChar g.char = true) (gs : List Glyph) :
    l.readToken? g gs = l.addPlainScalar? g gs := by
  have hne (d : Char) (hd : isWordChar d = false) : g.char ≠ d := ne_of_class h hd
  have hstarts : startsPlain l.inFlow g gs = true := by
    have hmarks : "-?:,[]\x7b\x7d#&*!|>\x27\"%@\x60".toList.contains g.char = false :=
      contains_eq_false_of_class h (by decide)
    rw [startsPlain, hmarks, isWhite_of_isStart (isStart_of_isWordChar h)]
    rfl
  rw [readToken?]
  simp [afterMarker?_eq_none (hne '-' (by decide)), afterMarker?_eq_none (hne '.' (by decide)),
    hne '%' (by decide), hne '[' (by decide), hne '\x7b' (by decide), hne ']' (by decide),
    hne '\x7d' (by decide), hne ',' (by decide), hne '-' (by decide), hne '?' (by decide),
    hne ':' (by decide), hne '*' (by decide), hne '&' (by decide), hne '!' (by decide),
    hne '|' (by decide), hne '>' (by decide), hne '\'' (by decide), hne '"' (by decide), hstarts]

section

variable {ts : List Token} {indents : List Nat} {allowed : Bool} {candidate : Option Candidate}

theorem unroll_outside (h : ∀ n ∈ indents.head?, n ≤ column) :
    (outside ts indents allowed candidate).unroll column
      = outside ts indents allowed candidate := by
  have hclose : closeTo column indents = (indents, 0) := by
    cases indents with
    | nil => rfl
    | cons n ns => rw [closeTo, if_neg (Nat.not_lt.mpr (h n rfl))]
  rw [unroll, inFlow_outside, indents_outside, hclose]
  rfl

theorem run_outside (hc : isStart c = true) (fuel : Nat) :
    run (fuel + 1) (outside ts indents allowed candidate) (placeFrom line column (c :: cs))
      = (((outside ts indents allowed candidate).unroll column).readToken? ⟨c, line, column⟩
          (placeFrom line (column + 1) cs)).bind fun step => run fuel step.1 step.2 :=
  run_of_skipGap fuel (by rw [inFlow_outside, keyAllowed_outside, skipGap_start hc])

/-- A token that ends no collection is read, and then the rest. -/
theorem reads_token {line' column' : Nat} (hc : isStart c = true)
    (hindents : ∀ n ∈ indents.head?, n ≤ column)
    (hread : (outside ts indents allowed candidate).readToken? ⟨c, line, column⟩
        (placeFrom line (column + 1) cs)
      = some (l', placeFrom line' column' rest))
    (hrest : rest.length ≤ cs.length) (h : l'.Reads line' column' rest all) :
    (outside ts indents allowed candidate).Reads line column (c :: cs) all := by
  refine reads_of_run (rest.length + 1 + 1) ?_ (by simpa using hrest)
  rw [run_outside hc, unroll_outside hindents, hread]
  exact h

theorem dropCandidate?_outside (h : Loose candidate) :
    (outside ts indents allowed candidate).dropCandidate?
      = some (outside ts indents allowed none) := by
  cases candidate with
  | none => rfl
  | some c => exact if_neg (by simp [h c rfl])

/-- The candidate that a token at a place becomes. -/
def candidateAt (ts : List Token) (indents : List Nat) (line column : Nat) : Candidate :=
  ⟨decide (indents.head? = some column), ts.length, line, column⟩

theorem saveCandidate?_outside (h : Loose candidate) (g : Glyph) :
    (outside ts indents allowed candidate).saveCandidate? g
      = some (outside ts indents allowed
          (if allowed then some (candidateAt ts indents g.line g.column) else candidate)) := by
  rw [saveCandidate?]
  cases allowed with
  | false => rfl
  | true =>
    rw [dropCandidate?_outside h]
    rfl

/-- The indentation of the lines that go on a scalar. -/
def indentation (indents : List Nat) : Nat :=
  match indents with
  | [] => 0
  | n :: _ => n + 1

theorem addPlainScalar?_outside {g : Glyph} {gs : List Glyph} {r : ScalarRead}
    (hloose : Loose candidate)
    (h : readPlain false (indentation indents) [] none (g :: gs) = some r) :
    (outside ts indents allowed candidate).addPlainScalar? g gs
      = some (outside (.scalar true r.text :: ts) indents r.lineEnded
          (if allowed then some (candidateAt ts indents g.line g.column) else candidate),
        r.rest) := by
  rw [addPlainScalar?, saveCandidate?_outside hloose]
  split
  · rename_i hl hr
    cases hl
    cases h.symm.trans hr
    rfl
  · rename_i hnone
    exact absurd h (hnone _ r rfl)

/-- A word is read together with what of the gap after it belongs to it. -/
theorem reads_word {line' column' : Nat} {rest' : List Char} {ended : Bool} (hne : cs ≠ [])
    (hchars : ∀ c ∈ cs, isWordChar c = true) (hloose : Loose candidate)
    (hindents : ∀ n ∈ indents.head?, n ≤ column)
    (hread : readPlain false (indentation indents) cs.reverse none
        (placeFrom line (column + cs.length) rest)
      = some ⟨cs, ended, placeFrom line' column' rest'⟩)
    (hrest : rest'.length ≤ rest.length)
    (h : (outside (.scalar true cs :: ts) indents ended
        (if allowed then some (candidateAt ts indents line column) else candidate)).Reads
      line' column' rest' all) :
    (outside ts indents allowed candidate).Reads line column (cs ++ rest) all := by
  obtain ⟨c, ds, rfl⟩ := List.exists_cons_of_ne_nil hne
  have hc := hchars c List.mem_cons_self
  have hstart := isStart_of_isWordChar hc
  have hword := readPlain_word hchars (indentation indents) line column [] rest
  rw [List.append_nil, hread, List.cons_append, placeFrom_cons_of_isStart hstart] at hword
  have hread : (outside ts indents allowed candidate).readToken? ⟨c, line, column⟩ _ = _ :=
    (readToken?_of_isWordChar (g := ⟨c, line, column⟩) hc _).trans
      (addPlainScalar?_outside hloose hword)
  refine reads_token hstart hindents hread ?_ h
  simp
  omega

/-- The last word of a line, before a line that goes on in the same collection or after it. -/
theorem reads_lastWord {n k : Nat} {ns : List Nat} (hne : cs ≠ [])
    (hchars : ∀ c ∈ cs, isWordChar c = true) (hloose : Loose candidate) (hn : n ≤ column)
    (hrest : ∀ c ∈ rest.head?, isStart c = true ∧ k ≤ n)
    (h : (outside (.scalar true cs :: ts) (n :: ns) true
        (if allowed then some (candidateAt ts (n :: ns) line column) else candidate)).Reads
      (line + 1) k rest all) :
    (outside ts (n :: ns) allowed candidate).Reads line column
      (cs ++ ('\n' :: spaces k ++ rest)) all := by
  have hread := readPlain_line (n + 1) line (column + cs.length) k cs.reverse
    fun c hc => ⟨(hrest c hc).1, Nat.lt_succ_of_le (hrest c hc).2⟩
  rw [List.reverse_reverse] at hread
  exact reads_word hne hchars hloose (by simpa using hn) hread (by simp; omega) h

/-! ## Keys -/

/-- The tokens, the last first, and the columns once a mapping at a column is open. -/
def opened (ts : List Token) (indents : List Nat) (column : Nat) : List Token × List Nat :=
  if indents.head? = some column then (ts, indents)
  else (.blockMappingStart :: ts, column :: indents)

theorem isDeeper_eq (h : ∀ n ∈ l.indents.head?, n ≤ column) :
    l.isDeeper column = decide (l.indents.head? ≠ some column) := by
  rw [isDeeper]
  cases hindents : l.indents with
  | nil => rfl
  | cons n ns =>
    rw [hindents] at h
    have hn := h n rfl
    have hiff : n < column ↔ n ≠ column := by omega
    simp [hiff]

theorem exists_opened (ts : List Token) (indents : List Nat) (column : Nat) :
    ∃ ns, (opened ts indents column).2 = column :: ns := by
  rw [opened]
  split
  · rename_i hopen
    obtain ⟨ns, hns⟩ := List.head?_eq_some_iff.mp hopen
    exact ⟨ns, hns⟩
  · exact ⟨indents, rfl⟩

theorem roll_outside (h : ∀ n ∈ indents.head?, n ≤ column) :
    (outside ts indents allowed candidate).roll column ts.length .blockMappingStart
      = outside (opened ts indents column).1 (opened ts indents column).2 allowed candidate := by
  rw [roll, isDeeper_eq h, opened]
  by_cases hopen : indents.head? = some column
  · simp [hopen, outside]
  · simp [hopen, outside, inFlow, insertAt]

/-- A colon makes a key of the word before it. -/
theorem addValue?_outside {cs : List Char} {g : Glyph}
    (h : ∀ n ∈ indents.head?, n ≤ column) (hline : g.line = line)
    (hcolumn : g.column ≤ column + 1024) :
    (outside (.scalar true cs :: ts) indents allowed
        (some (candidateAt ts indents line column))).addValue? g
      = some (outside (.value :: .scalar true cs :: .key :: (opened ts indents column).1)
          (opened ts indents column).2 false none) := by
  have hreaches : (candidateAt ts indents line column).reaches g = true := by
    simp [Candidate.reaches, candidateAt, hline, hcolumn]
  rw [addValue?]
  simp only [candidate_outside, hreaches, if_true]
  rw [roll, isDeeper_eq h, opened]
  by_cases hopen : indents.head? = some column
  · simp [hopen, outside, insertAt, candidateAt, add]
  · have htwo : ts.length + 1 + 1 - ts.length = 2 := by omega
    simp [hopen, outside, insertAt, candidateAt, add, inFlow, htwo]

/-- A colon on a later line stands before the value of the key that is open. -/
theorem addValue?_outside_of_line {c : Candidate} {g : Glyph} (hline : c.line ≠ g.line)
    (hloose : c.required = false) (hopen : indents.head? = some g.column) :
    (outside ts indents true (some c)).addValue? g
      = some (outside (.value :: ts) indents true none) := by
  have hreaches : c.reaches g = false := by simp [Candidate.reaches, hline]
  have hdeeper (l : Lexer) (hl : l.indents = indents) : l.isDeeper g.column = false := by
    rw [isDeeper_eq (by simp [hl, hopen])]
    simp [hl, hopen]
  rw [addValue?]
  simp only [candidate_outside, hreaches, hloose, Bool.false_eq_true, if_false]
  rw [addBareValue?, roll, hdeeper _ rfl]
  simp [outside, inFlow, add]

theorem addKey?_outside {g : Glyph} (hloose : Loose candidate)
    (h : ∀ n ∈ indents.head?, n ≤ g.column) :
    (outside ts indents true candidate).addKey? g
      = some (outside (.key :: (opened ts indents g.column).1) (opened ts indents g.column).2
          true none) := by
  rw [addKey?]
  simp only [inFlow_outside, keyAllowed_outside, count_outside, Bool.false_eq_true, if_false,
    if_true, roll_outside h, addFlowMark?, dropCandidate?_outside hloose]
  rfl

theorem readToken?_colon {g : Glyph} {gs : List Glyph} (hg : g.char = ':')
    (h : atWordEnd gs = true) : l.readToken? g gs = (l.addValue? g).map fun l => (l, gs) := by
  rw [readToken?, afterMarker?_eq_none (by simp [hg]), afterMarker?_eq_none (by simp [hg])]
  simp [hg, h]

theorem readToken?_questionMark {g : Glyph} {gs : List Glyph} (hg : g.char = '?')
    (h : atWordEnd gs = true) : l.readToken? g gs = (l.addKey? g).map fun l => (l, gs) := by
  rw [readToken?, afterMarker?_eq_none (by simp [hg]), afterMarker?_eq_none (by simp [hg])]
  simp [hg, h]

/-- A key on the line of its value. -/
theorem reads_simpleKey (hne : cs ≠ []) (hchars : ∀ c ∈ cs, isWordChar c = true)
    (hlength : cs.length ≤ 128) (hloose : Loose candidate)
    (hindents : ∀ n ∈ indents.head?, n ≤ column)
    (hend : ∀ line column, atWordEnd (placeFrom line column rest) = true)
    (h : (outside (.value :: .scalar true cs :: .key :: (opened ts indents column).1)
        (opened ts indents column).2 false none).Reads line (column + cs.length + 1) rest all) :
    (outside ts indents true candidate).Reads line column (cs ++ ':' :: rest) all := by
  have hcolon : isStart ':' = true := by decide
  have hvalue : (outside (.scalar true cs :: ts) indents false
      (some (candidateAt ts indents line column))).addValue? ⟨':', line, column + cs.length⟩ = _ :=
    addValue?_outside hindents rfl (by simp; omega)
  refine reads_word hne hchars hloose hindents
    ((readPlain_colon _ _ _ _ (hend _ _)).trans (by rw [List.reverse_reverse])) (Nat.le_refl _) ?_
  refine reads_token hcolon (fun n hn => Nat.le_add_right_of_le (hindents n hn)) ?_
    (Nat.le_refl _) h
  rw [readToken?_colon rfl (hend _ _), if_pos rfl, hvalue]
  rfl

/-- A key on a line before its value. -/
theorem reads_explicitKey (hne : cs ≠ []) (hchars : ∀ c ∈ cs, isWordChar c = true)
    (hloose : Loose candidate) (hindents : ∀ n ∈ indents.head?, n ≤ column)
    (hend : ∀ line column, atWordEnd (placeFrom line column rest) = true)
    (h : (outside (.value :: .scalar true cs :: .key :: (opened ts indents column).1)
        (opened ts indents column).2 true none).Reads (line + 1) (column + 1) rest all) :
    (outside ts indents true candidate).Reads line column
      ('?' :: ' ' :: (cs ++ ('\n' :: spaces column ++ ':' :: rest))) all := by
  have hmark : isStart '?' = true := by decide
  have hcolon : isStart ':' = true := by decide
  obtain ⟨ns, hopen⟩ := exists_opened ts indents column
  have hmarked : (outside ts indents true candidate).readToken? ⟨'?', line, column⟩
      (placeFrom line (column + 1) (' ' :: (cs ++ ('\n' :: spaces column ++ ':' :: rest))))
      = some (outside (.key :: (opened ts indents column).1) (column :: ns) true none,
        placeFrom line (column + 1) (' ' :: (cs ++ ('\n' :: spaces column ++ ':' :: rest)))) := by
    rw [readToken?_questionMark rfl rfl, addKey?_outside hloose hindents, hopen]
    rfl
  have hvalue : (outside (.scalar true cs :: .key :: (opened ts indents column).1) (column :: ns)
      true (some (candidateAt (.key :: (opened ts indents column).1) (column :: ns) line
        (column + 2)))).addValue? ⟨':', line + 1, column⟩ = _ :=
    addValue?_outside_of_line (by simp [candidateAt]) (by simp [candidateAt]) rfl
  refine reads_token hmark hindents hmarked (Nat.le_refl _) (reads_space ?_)
  refine reads_lastWord hne hchars loose_none (Nat.le_add_right column 2) (by simp [hcolon]) ?_
  refine reads_token hcolon (by simp) ?_ (Nat.le_refl _) (hopen ▸ h)
  rw [readToken?_colon rfl (hend _ _), if_pos rfl, hvalue]
  rfl

/-! ## Ends -/

theorem unroll_outside_cons {n : Nat} (h : column < n) (ns : List Nat) :
    (outside ts (n :: ns) allowed candidate).unroll column
      = (outside (.blockEnd :: ts) ns allowed candidate).unroll column := by
  rw [unroll, unroll, inFlow_outside, inFlow_outside, indents_outside, indents_outside, closeTo,
    if_pos h]
  rfl

/-- A collection ends before a token that is less indented, and at the end of the text. -/
theorem reads_close {n k : Nat} {ns : List Nat}
    (hrest : ∀ c ∈ rest.head?, isStart c = true ∧ k < n)
    (h : (outside (.blockEnd :: ts) ns allowed candidate).Reads line k rest all) :
    (outside ts (n :: ns) allowed candidate).Reads line k rest all := by
  cases rest with
  -- At the end of the text all open collections end, this one first.
  | nil => exact h
  | cons c cs =>
    obtain ⟨hc, hk⟩ := hrest c rfl
    rw [Reads, run_outside hc] at h ⊢
    rw [unroll_outside_cons hk]
    exact h

/-- At the end of a text all is read. -/
theorem reads_end (h : Loose candidate) :
    (outside ts [] allowed candidate).Reads line column [] ts.reverse := by
  have hunroll : (outside ts [] allowed candidate).unrollAll = outside ts [] allowed candidate :=
    rfl
  rw [Reads, placeFrom, List.length_nil, run, skipGap]
  simp only
  rw [hunroll, dropCandidate?_outside h]
  rfl

end

end Lexer

end MachineDriver.Yaml
