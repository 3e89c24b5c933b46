import MachineDriver.Yaml.Token.Stream

set_option autoImplicit false

/-!
# Texts further down

The reader of a YAML text looks at the line of a character for one purpose only: to see whether a
colon is on the line of what may be its key. So it reads the same tokens when all characters stand
some lines further down. Every part of the reader commutes with `Glyph.lower`, which is stated for
each in turn; what is left to read, and the candidates for keys that are kept, are then lowered as
well. The main statement is `Lexer.run_lower`. -/

namespace MachineDriver.Yaml

/-- A character some lines further down. -/
def Glyph.lower (k : Nat) (g : Glyph) : Glyph :=
  { g with line := g.line + k }

variable (k : Nat)

@[simp] theorem Glyph.char_lower (g : Glyph) : (g.lower k).char = g.char := rfl
@[simp] theorem Glyph.column_lower (g : Glyph) : (g.lower k).column = g.column := rfl
/-- What was read, and the rest of the characters further down. -/
def lowerRest {α : Type} (r : α × List Glyph) : α × List Glyph :=
  (r.1, r.2.map (Glyph.lower k))

theorem placeFrom_add (line column : Nat) (cs : List Char) :
    placeFrom (line + k) column cs = (placeFrom line column cs).map (Glyph.lower k) := by
  induction cs generalizing line column with
  | nil => rfl
  | cons c cs ih =>
    have hnext := ih (line + 1) 0
    rw [Nat.add_right_comm] at hnext
    rw [placeFrom, placeFrom, List.map_cons, apply_ite (List.map (Glyph.lower k)), hnext, ih]
    rfl

@[simp] theorem atWordEnd_lower (gs : List Glyph) :
    atWordEnd (gs.map (Glyph.lower k)) = atWordEnd gs := by
  cases gs <;> rfl

@[simp] theorem startsWith_lower (c : Char) (gs : List Glyph) :
    startsWith c (gs.map (Glyph.lower k)) = startsWith c gs := by
  cases gs <;> rfl

@[simp] theorem any_head?_lower (p : Char → Bool) (gs : List Glyph) :
    ((gs.map (Glyph.lower k)).head?.any fun g => p g.char) = gs.head?.any fun g => p g.char := by
  cases gs <;> rfl

@[simp] theorem toLineEnd_lower (gs : List Glyph) :
    toLineEnd (gs.map (Glyph.lower k)) = (toLineEnd gs).map (Glyph.lower k) :=
  List.dropWhile_map ..

@[simp] theorem afterWhite_lower (gs : List Glyph) :
    afterWhite (gs.map (Glyph.lower k)) = (afterWhite gs).map (Glyph.lower k) :=
  List.dropWhile_map ..

@[simp] theorem afterMarker?_lower (c : Char) (gs : List Glyph) :
    afterMarker? c (gs.map (Glyph.lower k))
      = (afterMarker? c gs).map (List.map (Glyph.lower k)) := by
  match gs with
  | [] => rfl
  | [_] => rfl
  | [_, _] => rfl
  | g :: g' :: g'' :: rest =>
    simp only [List.map_cons, afterMarker?, Glyph.column_lower, Glyph.char_lower, atWordEnd_lower,
      apply_ite (Option.map (List.map (Glyph.lower k)))]
    rfl

@[simp] theorem atMarker_lower (gs : List Glyph) :
    atMarker (gs.map (Glyph.lower k)) = atMarker gs := by
  simp [atMarker]

/-! ## Scalars -/

/-- A scalar that was read, and what follows it further down. -/
def ScalarRead.lower (r : ScalarRead) : ScalarRead :=
  { r with rest := r.rest.map (Glyph.lower k) }

theorem readPlain_lower (flow : Bool) (indent : Nat) (done : List Char) (gap : Option Gap)
    (gs : List Glyph) :
    readPlain flow indent done gap (gs.map (Glyph.lower k))
      = (readPlain flow indent done gap gs).map (ScalarRead.lower k) := by
  induction gs generalizing done gap with
  | nil => rfl
  | cons g gs ih =>
    have hmarker := atMarker_lower k (g :: gs)
    rw [List.map_cons] at hmarker ⊢
    simp only [readPlain, Glyph.char_lower, Glyph.column_lower, hmarker, atWordEnd_lower,
      startsWith_lower, any_head?_lower k isFlowMark, ih,
      apply_ite (Option.map (ScalarRead.lower k))]
    rfl

theorem readSingleQuoted_lower (done : List Char) (gap : Option Gap) : ∀ gs : List Glyph,
    readSingleQuoted done gap (gs.map (Glyph.lower k))
      = (readSingleQuoted done gap gs).map (ScalarRead.lower k)
  | [] => rfl
  | [g] => by
    have hmarker := atMarker_lower k [g]
    simp only [List.map_cons, List.map_nil] at hmarker ⊢
    simp only [readSingleQuoted, Glyph.char_lower, hmarker,
      apply_ite (Option.map (ScalarRead.lower k))]
    rfl
  | g :: h :: gs => by
    have hmarker := atMarker_lower k (g :: h :: gs)
    have hnext (done : List Char) (gap : Option Gap) := readSingleQuoted_lower done gap (h :: gs)
    rw [List.map_cons, List.map_cons] at hmarker
    simp only [List.map_cons] at hnext ⊢
    simp only [readSingleQuoted, Glyph.char_lower, hmarker, hnext, readSingleQuoted_lower,
      apply_ite (Option.map (ScalarRead.lower k))]
    rfl

theorem readDoubleQuoted_lower (e : Escape) (done : List Char) (gap : Option Gap)
    (gs : List Glyph) :
    readDoubleQuoted e done gap (gs.map (Glyph.lower k))
      = (readDoubleQuoted e done gap gs).map (ScalarRead.lower k) := by
  induction gs generalizing e done gap with
  | nil => cases e <;> rfl
  | cons g gs ih =>
    have hmarker := atMarker_lower k (g :: gs)
    rw [List.map_cons] at hmarker ⊢
    cases e with
    | outside =>
      simp only [readDoubleQuoted, Glyph.char_lower, hmarker, ih,
        apply_ite (Option.map (ScalarRead.lower k))]
      rfl
    | begun =>
      simp only [readDoubleQuoted, Glyph.char_lower, ih,
        apply_ite (Option.map (ScalarRead.lower k))]
      split
      · rfl
      · cases escape? g.char with
        | some c => rfl
        | none => cases escapeLength? g.char <;> rfl
    | digits owed seen =>
      simp only [readDoubleQuoted, Glyph.char_lower, ih,
        apply_ite (Option.map (ScalarRead.lower k))]
      split
      · cases readCodePoint? (g.char :: seen).reverse <;> rfl
      · rfl

/-! ## Block scalars -/

theorem readChomping_lower (gs : List Glyph) :
    readChomping (gs.map (Glyph.lower k))
      = ((readChomping gs).1, (readChomping gs).2.map (Glyph.lower k)) := by
  cases gs with
  | nil => rfl
  | cons g gs =>
    simp only [List.map_cons, readChomping, Glyph.char_lower]
    cases chomping? g.char <;> rfl

theorem readIncrement?_lower (gs : List Glyph) :
    readIncrement? (gs.map (Glyph.lower k))
      = (readIncrement? gs).map (lowerRest k) := by
  cases gs with
  | nil => rfl
  | cons g gs =>
    simp only [List.map_cons, readIncrement?, Glyph.char_lower]
    rcases Text.digitValue? 10 g.char with _ | _ | d <;> rfl

theorem readHeaderEnd?_lower (gs : List Glyph) :
    readHeaderEnd? (gs.map (Glyph.lower k))
      = (readHeaderEnd? gs).map (List.map (Glyph.lower k)) := by
  simp only [readHeaderEnd?, afterWhite_lower, startsWith_lower, toLineEnd_lower,
    ← apply_ite (List.map (Glyph.lower k))]
  cases (if startsWith '#' (afterWhite gs) = true then toLineEnd (afterWhite gs)
    else afterWhite gs) with
  | nil => rfl
  | cons g gs =>
    simp only [List.map_cons, Glyph.char_lower, apply_ite (Option.map (List.map (Glyph.lower k)))]
    rfl

/-- A header, and what follows it further down. -/
def BlockHeader.lower (h : BlockHeader) : BlockHeader :=
  { h with rest := h.rest.map (Glyph.lower k) }

theorem readBlockHeader?_lower (gs : List Glyph) :
    readBlockHeader? (gs.map (Glyph.lower k))
      = (readBlockHeader? gs).map (BlockHeader.lower k) := by
  simp only [readBlockHeader?, readChomping_lower, readIncrement?_lower]
  rcases readIncrement? (readChomping gs).2 with _ | ⟨increment, gs'⟩
  · rfl
  · simp only [Option.map_some, lowerRest]
    by_cases hsecond : ((readChomping gs).1.isNone && increment.isSome) = true
    · rw [if_pos hsecond, if_pos hsecond]
      simp only [readChomping_lower, readHeaderEnd?_lower]
      cases readHeaderEnd? (readChomping gs').2 <;> rfl
    · rw [if_neg hsecond, if_neg hsecond]
      simp only [readHeaderEnd?_lower]
      cases readHeaderEnd? gs' <;> rfl

theorem readLeadingBlank_lower (breaks : List Char) (most : Nat) (gs : List Glyph) :
    readLeadingBlank breaks most (gs.map (Glyph.lower k))
      = (readLeadingBlank breaks most gs).map fun r => (r.1, r.2.1, r.2.2.map (Glyph.lower k)) := by
  induction gs generalizing breaks most with
  | nil => rfl
  | cons g gs ih =>
    simp only [List.map_cons, readLeadingBlank, Glyph.char_lower, Glyph.column_lower, ih,
      apply_ite (Option.map fun r : List Char × Nat × List Glyph =>
        (r.1, r.2.1, r.2.2.map (Glyph.lower k)))]
    rfl

theorem readBlockLines_lower (folded : Bool) (indent : Nat) (inLine : Bool) (b : BlockLines)
    (gs : List Glyph) :
    readBlockLines folded indent inLine b (gs.map (Glyph.lower k))
      = (readBlockLines folded indent inLine b gs).map (lowerRest k) := by
  induction gs generalizing inLine b with
  | nil => cases inLine <;> rfl
  | cons g gs ih =>
    cases inLine with
    | true =>
      simp only [List.map_cons, readBlockLines, Glyph.char_lower, ih,
        apply_ite (Option.map (lowerRest k))]
    | false =>
      simp only [List.map_cons, readBlockLines, Glyph.char_lower, Glyph.column_lower, ih,
        apply_ite (Option.map (lowerRest k))]
      rfl

theorem readBlock_lower (folded : Bool) (outer : Option Nat) (gs : List Glyph) :
    readBlock folded outer (gs.map (Glyph.lower k))
      = (readBlock folded outer gs).map (ScalarRead.lower k) := by
  unfold readBlock
  rw [readBlockHeader?_lower]
  rcases readBlockHeader? gs with _ | ⟨chomping, increment | increment, rest⟩
  · rfl
  · simp only [Option.map_some, BlockHeader.lower, readLeadingBlank_lower]
    rcases readLeadingBlank [] 0 rest with _ | ⟨breaks, most, rest⟩
    · rfl
    · simp only [Option.map_some, readBlockLines_lower]
      generalize readBlockLines folded _ false _ rest = lines
      cases lines <;> rfl
  · simp only [Option.map_some, BlockHeader.lower, readBlockLines_lower]
    generalize readBlockLines folded _ false _ rest = lines
    cases lines <;> rfl

/-! ## Anchors, tags and directives -/

theorem takeWhile_lower (p : Char → Bool) (gs : List Glyph) :
    ((gs.map (Glyph.lower k)).takeWhile fun g => p g.char)
      = (gs.takeWhile fun g => p g.char).map (Glyph.lower k) :=
  List.takeWhile_map ..

theorem dropWhile_lower (p : Char → Bool) (gs : List Glyph) :
    ((gs.map (Glyph.lower k)).dropWhile fun g => p g.char)
      = (gs.dropWhile fun g => p g.char).map (Glyph.lower k) :=
  List.dropWhile_map ..

theorem map_char_lower (gs : List Glyph) :
    (gs.map (Glyph.lower k)).map Glyph.char = gs.map Glyph.char := by
  rw [List.map_map]
  rfl

theorem readName?_lower (gs : List Glyph) :
    readName? (gs.map (Glyph.lower k))
      = (readName? gs).map (lowerRest k) := by
  simp only [readName?, takeWhile_lower k isNameChar, dropWhile_lower k isNameChar, atWordEnd_lower,
    map_char_lower, List.isEmpty_map, any_head?_lower k fun c => "?:,]\x7d%@\x60".toList.contains c,
    apply_ite (Option.map (lowerRest k))]
  rfl

theorem readTagBytes?_lower (verbatim : Bool) (owed : Nat) (bytes : List UInt8) :
    ∀ gs : List Glyph, readTagBytes? verbatim owed bytes (gs.map (Glyph.lower k))
      = (readTagBytes? verbatim owed bytes gs).map (lowerRest k)
  | [] => by
    simp only [List.map_nil, readTagBytes?,
      apply_ite (Option.map (lowerRest k))]
    rfl
  | [g] => by
    simp only [List.map_cons, List.map_nil, readTagBytes?, Glyph.char_lower,
      apply_ite (Option.map (lowerRest k))]
    rfl
  | [g, g'] => by
    have hnext (bytes : List UInt8) := readTagBytes?_lower verbatim 0 bytes [g']
    simp only [List.map_cons, List.map_nil] at hnext ⊢
    simp only [readTagBytes?, Glyph.char_lower,
      apply_ite (Option.map (lowerRest k))]
    rfl
  | g :: g' :: g'' :: gs => by
    have hnext (bytes : List UInt8) := readTagBytes?_lower verbatim 0 bytes (g' :: g'' :: gs)
    have hescape (owed : Nat) (bytes : List UInt8) := readTagBytes?_lower verbatim owed bytes gs
    simp only [List.map_cons] at hnext ⊢
    simp only [readTagBytes?, Glyph.char_lower, hnext,
      apply_ite (Option.map (lowerRest k))]
    cases Text.readBelow? 16 256 [g'.char, g''.char] with
    | none => rfl
    | some n =>
      simp only [hescape, apply_ite (Option.map (lowerRest k))]
      cases followers? n <;> rfl

theorem readHandle?_lower (gs : List Glyph) :
    readHandle? (gs.map (Glyph.lower k))
      = (readHandle? gs).map fun r => (r.1, r.2.1, r.2.2.map (Glyph.lower k)) := by
  cases gs with
  | nil => rfl
  | cons g gs =>
    simp only [List.map_cons, readHandle?, Glyph.char_lower, takeWhile_lower k isNameChar,
      dropWhile_lower k isNameChar, map_char_lower]
    split
    · rfl
    · cases gs.dropWhile fun g => isNameChar g.char with
      | nil => rfl
      | cons h rest =>
        simp only [List.map_cons, Glyph.char_lower,
          apply_ite (Option.map fun r : List Char × Bool × List Glyph =>
            (r.1, r.2.1, r.2.2.map (Glyph.lower k)))]
        rfl

theorem short_lower (gs : List Glyph) :
    readTag?.short (gs.map (Glyph.lower k))
      = (readTag?.short gs).map fun r => (r.1, r.2.1, r.2.2.map (Glyph.lower k)) := by
  simp only [readTag?.short, readHandle?_lower]
  rcases readHandle? gs with _ | ⟨name, closed | closed, rest⟩
  · rfl
  · simp only [Option.map_some, readTagBytes?_lower]
    rcases readTagBytes? false 0 [] rest with _ | ⟨bytes, rest⟩
    · rfl
    · simp only [Option.map_some, lowerRest]
      cases nameBytes name ++ bytes <;> rfl
  · simp only [Option.map_some, readTagBytes?_lower]
    rcases readTagBytes? false 0 [] rest with _ | ⟨bytes, rest⟩
    · rfl
    · simp only [Option.map_some, lowerRest]
      cases bytes.isEmpty <;> rfl

theorem readTag?_lower (flow : Bool) (gs : List Glyph) :
    readTag? flow (gs.map (Glyph.lower k)) = (readTag? flow gs).map (lowerRest k) := by
  match gs with
  | [] => rfl
  | [g] =>
    have hshort := short_lower k [g]
    simp only [List.map_cons, List.map_nil] at hshort ⊢
    simp only [readTag?, hshort]
    rcases readTag?.short [g] with _ | ⟨handle, suffix, rest⟩
    · rfl
    · simp only [Option.map_some, atWordEnd_lower, startsWith_lower]
      split <;> rfl
  | g :: h :: rest =>
    by_cases hverbatim : (g.char = '!' && h.char = '<') = true
    · have hlowered : ((g.lower k).char = '!' && (h.lower k).char = '<') = true := hverbatim
      simp only [List.map_cons, readTag?, hverbatim, hlowered, if_true, readTagBytes?_lower]
      rcases readTagBytes? true 0 [] rest with _ | ⟨bytes, _ | ⟨e, rest⟩⟩
      · rfl
      · rfl
      · by_cases hclosed : (e.char = '>' && !bytes.isEmpty) = true
        · have hlowered : ((e.lower k).char = '>' && !bytes.isEmpty) = true := hclosed
          simp only [Option.map_some, lowerRest, List.map_cons, hclosed, hlowered, if_true,
            atWordEnd_lower, startsWith_lower]
          split <;> rfl
        · have hlowered : ¬ ((e.lower k).char = '>' && !bytes.isEmpty) = true := hclosed
          simp only [Option.map_some, lowerRest, List.map_cons, if_neg hclosed, if_neg hlowered,
            Option.map_none]
    · have hlowered : ¬ ((g.lower k).char = '!' && (h.lower k).char = '<') = true := hverbatim
      have hshort := short_lower k (g :: h :: rest)
      simp only [List.map_cons] at hshort
      simp only [List.map_cons, readTag?, if_neg hverbatim, if_neg hlowered, hshort]
      rcases readTag?.short (g :: h :: rest) with _ | ⟨handle, suffix, rest⟩
      · rfl
      · simp only [Option.map_some, atWordEnd_lower, startsWith_lower]
        split <;> rfl

theorem readVersionPart?_lower (gs : List Glyph) :
    readVersionPart? (gs.map (Glyph.lower k))
      = (readVersionPart? gs).map (lowerRest k) := by
  simp only [readVersionPart?, takeWhile_lower k Text.isDigit, dropWhile_lower k Text.isDigit,
    map_char_lower, List.length_map]
  split
  · cases Text.readNumeral? 10 ((gs.takeWhile fun g => Text.isDigit g.char).map Glyph.char) <;> rfl
  · rfl

theorem readVersion?_lower (gs : List Glyph) :
    readVersion? (gs.map (Glyph.lower k))
      = (readVersion? gs).map (lowerRest k) := by
  simp only [readVersion?, readVersionPart?_lower]
  rcases readVersionPart? gs with _ | ⟨major, _ | ⟨dot, gs⟩⟩
  · rfl
  · rfl
  · simp only [Option.map_some, lowerRest, List.map_cons, Glyph.char_lower, readVersionPart?_lower]
    split
    · cases readVersionPart? gs <;> rfl
    · rfl

theorem readAbbreviation?_lower (gs : List Glyph) :
    readAbbreviation? (gs.map (Glyph.lower k))
      = (readAbbreviation? gs).map (lowerRest k) := by
  simp only [readAbbreviation?, readHandle?_lower]
  rcases readHandle? gs with _ | ⟨name, closed, rest⟩
  · rfl
  · simp only [Option.map_some, any_head?_lower k isWhite, afterWhite_lower, readTagBytes?_lower]
    split
    · rcases readTagBytes? true 0 [] (afterWhite rest) with _ | ⟨bytes, rest⟩
      · rfl
      · simp only [Option.map_some, lowerRest, atWordEnd_lower]
        split <;> rfl
    · rfl

/-- The rest of the line that a directive stands on. -/
theorem directiveEnd_lower (read : Option (Token × List Glyph)) :
    (match read.map (lowerRest k) with
      | none => none
      | some (token, rest) =>
        match if startsWith '#' (afterWhite rest) = true then toLineEnd (afterWhite rest)
          else afterWhite rest with
        | [] => some (token, [])
        | g :: rest => if isBreak g.char = true then some (token, rest) else none)
    = (match read with
      | none => none
      | some (token, rest) =>
        match if startsWith '#' (afterWhite rest) = true then toLineEnd (afterWhite rest)
          else afterWhite rest with
        | [] => some (token, [])
        | g :: rest => if isBreak g.char = true then some (token, rest) else none).map
          (lowerRest k) := by
  rcases read with _ | ⟨token, rest⟩
  · rfl
  · simp only [Option.map_some, lowerRest, afterWhite_lower, startsWith_lower, toLineEnd_lower,
      ← apply_ite (List.map (Glyph.lower k))]
    cases (if startsWith '#' (afterWhite rest) = true then toLineEnd (afterWhite rest)
      else afterWhite rest) with
    | nil => rfl
    | cons g rest =>
      simp only [List.map_cons, Glyph.char_lower, apply_ite (Option.map (lowerRest k))]
      rfl

theorem readDirective?_lower (gs : List Glyph) :
    readDirective? (gs.map (Glyph.lower k)) = (readDirective? gs).map (lowerRest k) := by
  simp only [readDirective?, takeWhile_lower k isNameChar, dropWhile_lower k isNameChar,
    map_char_lower, atWordEnd_lower, afterWhite_lower, readVersion?_lower, readAbbreviation?_lower]
  generalize hname : (gs.takeWhile fun g => isNameChar g.char).map Glyph.char = name
  generalize gs.dropWhile (fun g => isNameChar g.char) = rest
  by_cases hword : (!atWordEnd rest) = true
  · simp only [hword, if_true, Option.map_none]
  · by_cases hversion : name = ['Y', 'A', 'M', 'L']
    · simp only [hword, hversion, if_true]
      exact directiveEnd_lower k _
    · by_cases htag : name = ['T', 'A', 'G']
      · simp only [hword, htag, if_true]
        exact directiveEnd_lower k _
      · simp only [hword, hversion, htag, if_false]
        rfl

/-! ## Tokens -/

/-- A candidate for a key that stands further down. -/
def Candidate.lower (c : Candidate) : Candidate :=
  { c with line := c.line + k }

namespace Lexer

/-- A reader whose candidates for keys stand further down. -/
def lower (l : Lexer) : Lexer :=
  { l with
    candidate := l.candidate.map (Candidate.lower k)
    outer := l.outer.map (Option.map (Candidate.lower k)) }

/-- A reader and what is left for it, both further down. -/
def lowerStep (r : Lexer × List Glyph) : Lexer × List Glyph :=
  (r.1.lower k, r.2.map (Glyph.lower k))

@[simp] theorem inFlow_lower (l : Lexer) : (l.lower k).inFlow = l.inFlow := by
  simp [inFlow, lower]

theorem addEnds_lower (l : Lexer) (n : Nat) : (l.lower k).addEnds n = (l.addEnds n).lower k := by
  induction n generalizing l with
  | zero => rfl
  | succ n ih => exact ih (l.add .blockEnd)

theorem unroll_lower (l : Lexer) (column : Nat) :
    (l.lower k).unroll column = (l.unroll column).lower k := by
  rw [unroll, unroll, inFlow_lower, apply_ite (lower k)]
  exact congrArg _ (addEnds_lower k { l with indents := (closeTo column l.indents).1 } _)

theorem unrollAll_lower (l : Lexer) : (l.lower k).unrollAll = l.unrollAll.lower k := by
  rw [unrollAll, unrollAll, inFlow_lower, apply_ite (lower k)]
  exact congrArg _ (addEnds_lower k { l with indents := [] } _)

theorem roll_lower (l : Lexer) (column position : Nat) (t : Token) :
    (l.lower k).roll column position t = (l.roll column position t).lower k := by
  rw [roll, roll, inFlow_lower, apply_ite (lower k)]
  rfl

theorem dropCandidate?_lower (l : Lexer) :
    (l.lower k).dropCandidate? = l.dropCandidate?.map (lower k) := by
  rcases l with ⟨tokens, count, indents, keyAllowed, _ | c, outer⟩
  · rfl
  · simp only [dropCandidate?, lower, Option.map_some, Candidate.lower,
      apply_ite (Option.map (lower k))]
    rfl

theorem saveCandidate?_lower (l : Lexer) (g : Glyph) :
    (l.lower k).saveCandidate? (g.lower k) = (l.saveCandidate? g).map (lower k) := by
  simp only [saveCandidate?, dropCandidate?_lower, inFlow_lower, apply_ite (Option.map (lower k))]
  cases l.dropCandidate? <;> rfl

theorem addFlowMark?_lower (l : Lexer) (t : Token) (keyAllowed : Bool) :
    (l.lower k).addFlowMark? t keyAllowed = (l.addFlowMark? t keyAllowed).map (lower k) := by
  simp only [addFlowMark?, dropCandidate?_lower]
  cases l.dropCandidate? <;> rfl

theorem openFlow?_lower (l : Lexer) (g : Glyph) (t : Token) :
    (l.lower k).openFlow? (g.lower k) t = (l.openFlow? g t).map (lower k) := by
  simp only [openFlow?, saveCandidate?_lower]
  cases l.saveCandidate? g <;> rfl

theorem closeFlow?_lower (l : Lexer) (t : Token) :
    (l.lower k).closeFlow? t = (l.closeFlow? t).map (lower k) := by
  simp only [closeFlow?, addFlowMark?_lower]
  rcases l.addFlowMark? t false with _ | ⟨tokens, count, indents, keyAllowed, candidate, outer⟩
  · rfl
  · cases outer <;> rfl

theorem addMarker?_lower (l : Lexer) (t : Token) :
    (l.lower k).addMarker? t = (l.addMarker? t).map (lower k) := by
  simp only [addMarker?, unrollAll_lower, dropCandidate?_lower]
  cases l.unrollAll.dropCandidate? <;> rfl

theorem addEntry?_lower (l : Lexer) (g : Glyph) :
    addEntry? (l.lower k) (g.lower k) = (l.addEntry? g).map (lower k) := by
  simp only [inFlow_lower, Glyph.column_lower, addEntry?,
    apply_ite (Option.map (lower k)), ← addFlowMark?_lower, ← roll_lower]
  rfl

theorem addKey?_lower (l : Lexer) (g : Glyph) :
    (l.lower k).addKey? (g.lower k) = (l.addKey? g).map (lower k) := by
  simp only [addKey?, inFlow_lower, Glyph.column_lower,
    apply_ite (Option.map (lower k)), ← addFlowMark?_lower, ← roll_lower]
  rfl

theorem addBareValue?_lower (l : Lexer) (g : Glyph) :
    (l.lower k).addBareValue? (g.lower k) = (l.addBareValue? g).map (lower k) := by
  simp only [addBareValue?, inFlow_lower, Glyph.column_lower,
    apply_ite (Option.map (lower k)), roll_lower]
  rfl

theorem reaches_lower (c : Candidate) (g : Glyph) :
    (c.lower k).reaches (g.lower k) = c.reaches g := by
  have hline : c.line + k = g.line + k ↔ c.line = g.line := Nat.add_right_cancel_iff
  exact congrArg (· && _) (decide_eq_decide.mpr hline)

theorem addValue?_lower (l : Lexer) (g : Glyph) :
    (l.lower k).addValue? (g.lower k) = (l.addValue? g).map (lower k) := by
  rcases l with ⟨tokens, count, indents, keyAllowed, _ | c, outer⟩
  · exact addBareValue?_lower k ⟨tokens, count, indents, keyAllowed, none, outer⟩ g
  · simp only [addValue?, lower, Option.map_some, reaches_lower]
    by_cases hreaches : c.reaches g = true
    · have hroll := roll_lower k { ({ tokens, count, indents, outer } : Lexer).insertAt c.position
        .key with keyAllowed := false } c.column c.position .blockMappingStart
      rw [if_pos hreaches, if_pos hreaches, Option.map_some]
      exact congrArg (fun l => some (l.add .value)) hroll
    · rw [if_neg hreaches, if_neg hreaches, apply_ite (Option.map (lower k))]
      exact congrArg (ite _ none)
        (addBareValue?_lower k ⟨tokens, count, indents, keyAllowed, none, outer⟩ g)

theorem addNode?_lower (l : Lexer) (g : Glyph) (read : Option (Token × List Glyph)) :
    (l.lower k).addNode? (g.lower k) (read.map (lowerRest k))
      = (l.addNode? g read).map (lowerStep k) := by
  simp only [addNode?, saveCandidate?_lower]
  cases l.saveCandidate? g with
  | none => rfl
  | some l => cases read <;> rfl

theorem scalarToken_lower (plain : Bool) (r : Option ScalarRead) :
    scalarToken plain (r.map (ScalarRead.lower k)) = (scalarToken plain r).map (lowerRest k) := by
  cases r <;> rfl

theorem addBlock?_lower (l : Lexer) (folded : Bool) (gs : List Glyph) :
    (l.lower k).addBlock? folded (gs.map (Glyph.lower k))
      = (l.addBlock? folded gs).map (lowerStep k) := by
  have hindents : (l.lower k).indents = l.indents := rfl
  simp only [addBlock?, dropCandidate?_lower, hindents, readBlock_lower]
  cases l.dropCandidate? with
  | none => rfl
  | some l' => cases readBlock folded l.indents.head? gs <;> rfl

theorem addPlainScalar?_lower (l : Lexer) (g : Glyph) (gs : List Glyph) :
    (l.lower k).addPlainScalar? (g.lower k) (gs.map (Glyph.lower k))
      = (l.addPlainScalar? g gs).map (lowerStep k) := by
  have hindents : (l.lower k).indents = l.indents := rfl
  have hread (indent : Nat) := readPlain_lower k l.inFlow indent [] none (g :: gs)
  simp only [List.map_cons] at hread
  simp only [addPlainScalar?, saveCandidate?_lower, hindents, inFlow_lower, hread]
  cases l.saveCandidate? g with
  | none => rfl
  | some l' =>
    generalize readPlain l.inFlow _ [] none (g :: gs) = read
    cases read <;> rfl

theorem startsPlain_lower (flow : Bool) (g : Glyph) (gs : List Glyph) :
    startsPlain flow (g.lower k) (gs.map (Glyph.lower k)) = startsPlain flow g gs := by
  simp only [startsPlain, Glyph.char_lower, any_head?_lower k isWhite, atWordEnd_lower]
  rfl

theorem skipGap_lower (flow inComment allowed : Bool) (gs : List Glyph) :
    skipGap flow inComment allowed (gs.map (Glyph.lower k))
      = lowerRest k (skipGap flow inComment allowed gs) := by
  induction gs generalizing inComment allowed with
  | nil => cases inComment <;> rfl
  | cons g gs ih =>
    cases inComment with
    | true =>
      simp only [List.map_cons, skipGap, Glyph.char_lower, ih, apply_ite (lowerRest k)]
    | false =>
      simp only [List.map_cons, skipGap, Glyph.char_lower, ih, apply_ite (lowerRest k)]
      rfl

theorem map_named_lower {α β : Type} (f : α → β) (read : Option (α × List Glyph)) :
    (read.map (lowerRest k)).map (fun (a, rest) => (f a, rest))
      = (read.map fun (a, rest) => (f a, rest)).map (lowerRest k) := by
  cases read <;> rfl

theorem readToken?_lower (l : Lexer) (g : Glyph) (gs : List Glyph) :
    (l.lower k).readToken? (g.lower k) (gs.map (Glyph.lower k))
      = (l.readToken? g gs).map (lowerStep k) := by
  have hmarker (c : Char) := afterMarker?_lower k c (g :: gs)
  have htag := readTag?_lower k l.inFlow (g :: gs)
  simp only [List.map_cons] at hmarker htag
  simp only [readToken?, Glyph.char_lower, Glyph.column_lower, inFlow_lower, hmarker, htag,
    unrollAll_lower, dropCandidate?_lower, addMarker?_lower, openFlow?_lower, closeFlow?_lower,
    addFlowMark?_lower, addEntry?_lower, addKey?_lower, addValue?_lower, atWordEnd_lower,
    addBlock?_lower, addPlainScalar?_lower, startsPlain_lower, readDirective?_lower,
    readName?_lower, readSingleQuoted_lower, readDoubleQuoted_lower, scalarToken_lower,
    map_named_lower, addNode?_lower]
  cases l.unrollAll.dropCandidate? <;> cases readDirective? gs
  all_goals
    cases afterMarker? '-' (g :: gs) <;> cases afterMarker? '.' (g :: gs)
    all_goals
      simp only [Option.map_some, Option.map_none, Option.map_map,
        apply_ite (Option.map (lowerStep k))]
      rfl

/-- What is done where a token begins. -/
theorem run_of_skipGap {l : Lexer} {gs rest : List Glyph} {allowed : Bool} {g : Glyph} (fuel : Nat)
    (h : skipGap l.inFlow false l.keyAllowed gs = (allowed, g :: rest)) :
    run (fuel + 1) l gs
      = (({ l with keyAllowed := allowed }.unroll g.column).readToken? g rest).bind
          fun step => run fuel step.1 step.2 := by
  rw [run, h]
  dsimp only
  cases ({ l with keyAllowed := allowed }.unroll g.column).readToken? g rest <;> rfl

theorem run_lower (fuel : Nat) (l : Lexer) (gs : List Glyph) :
    run fuel (l.lower k) (gs.map (Glyph.lower k)) = run fuel l gs := by
  induction fuel generalizing l gs with
  | zero => rfl
  | succ fuel ih =>
    have hlowered : skipGap (l.lower k).inFlow false (l.lower k).keyAllowed
          (gs.map (Glyph.lower k))
        = lowerRest k (skipGap l.inFlow false l.keyAllowed gs) := by
      rw [inFlow_lower]
      exact skipGap_lower k l.inFlow false l.keyAllowed gs
    rcases hgap : skipGap l.inFlow false l.keyAllowed gs with ⟨allowed, _ | ⟨g, rest⟩⟩
    · rw [hgap] at hlowered
      rw [run, run, hlowered, hgap]
      simp only [lowerRest, List.map_nil, unrollAll_lower, dropCandidate?_lower, Option.map_map]
      rfl
    · rw [hgap] at hlowered
      have hread := readToken?_lower k ({ l with keyAllowed := allowed }.unroll g.column) g rest
      rw [← unroll_lower] at hread
      rw [run_of_skipGap fuel hgap, run_of_skipGap fuel hlowered]
      refine (congrArg (Option.bind · _) hread).trans ?_
      rw [Option.bind_map]
      exact Option.bind_congr fun step _ => ih step.1 step.2

end Lexer

end MachineDriver.Yaml
