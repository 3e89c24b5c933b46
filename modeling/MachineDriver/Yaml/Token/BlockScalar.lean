import MachineDriver.Text.Decimal
import MachineDriver.Yaml.Token.Scalar

set_option autoImplicit false

/-!
# Block scalars

Scalars whose lines are told by their indentation. A header gives the form: whether breaks are kept
or folded, what becomes of the breaks at the end, and perhaps the indentation.
-/

namespace MachineDriver.Yaml

/-- What becomes of the breaks at the end of a block scalar. -/
inductive Chomping where
  | strip
  | clip
  | keep
  deriving DecidableEq, Repr, Inhabited

/-- The header of a block scalar, and what follows it. -/
structure BlockHeader where
  chomping : Chomping
  /-- By how much the lines are indented more than the collection around them. -/
  increment : Option Nat
  rest : List Glyph

/-- The chomping of a character. -/
def chomping? (c : Char) : Option Chomping :=
  if c = '+' then some .keep else if c = '-' then some .strip else none

/-- Reads the sign or the digit at the front of a header, if there is one. -/
def readChomping : List Glyph → Option Chomping × List Glyph
  | [] => (none, [])
  | g :: gs =>
    match chomping? g.char with
    | some c => (some c, gs)
    | none => (none, g :: gs)

/-- Reads a digit at the front of a header, if there is one; nought is no indentation. -/
def readIncrement? : List Glyph → Option (Option Nat × List Glyph)
  | [] => some (none, [])
  | g :: gs =>
    match Text.digitValue? 10 g.char with
    | some 0 => none
    | some d => some (some d, gs)
    | none => some (none, g :: gs)

/-- Reads the rest of a header's line, which may only hold a comment. -/
def readHeaderEnd? (gs : List Glyph) : Option (List Glyph) :=
  let gs := afterWhite gs
  let gs := if startsWith '#' gs then toLineEnd gs else gs
  match gs with
  | [] => some []
  | g :: rest => if isBreak g.char then some rest else none

/-- Reads the header of a block scalar after its first character; sign and digit may come in any
order. -/
def readBlockHeader? (gs : List Glyph) : Option BlockHeader :=
  let (first, gs) := readChomping gs
  match readIncrement? gs with
  | none => none
  | some (increment, gs) =>
    let (second, gs) :=
      if first.isNone && increment.isSome then readChomping gs else (none, gs)
    match readHeaderEnd? gs with
    | none => none
    | some rest => some ⟨(first.orElse fun _ => second).getD .clip, increment, rest⟩

/-- What comes before the first line of a block scalar whose indentation is not given: its breaks,
last first, the greatest column that is reached, and the first character that is neither blank nor
break. -/
def readLeadingBlank : List Char → Nat → List Glyph → Option (List Char × Nat × List Glyph)
  | breaks, most, [] => some (breaks, most, [])
  | breaks, most, g :: gs =>
    let most := max most g.column
    if g.char = ' ' then readLeadingBlank breaks (max most (g.column + 1)) gs
    else if g.char = '\t' then none
    else if isBreak g.char then readLeadingBlank (g.char :: breaks) most gs
    else some (breaks, most, g :: gs)

/-- The lines of a block scalar that were read: the text, last character first, the break after its
last line, the breaks after that, and whether the last line begins with white space. -/
structure BlockLines where
  text : List Char := []
  lastBreak : Option Char := none
  breaks : List Char := []
  blankStart : Bool := false
  deriving Repr, Inhabited

namespace BlockLines

/-- The lines with one more line begun. A folded scalar has a blank for a single break between lines
that do not begin with white space, and loses the first of several. -/
def beginLine (b : BlockLines) (folded white : Bool) : BlockLines :=
  let joined :=
    match b.lastBreak with
    | none => []
    | some c =>
      if folded && c = '\n' && !b.blankStart && !white then
        if b.breaks.isEmpty then [' '] else []
      else [c]
  { text := b.breaks ++ (joined ++ b.text), lastBreak := none, breaks := [], blankStart := white }

/-- The text of the lines, with the breaks at the end that the chomping leaves. -/
def finish (b : BlockLines) (chomping : Chomping) : List Char :=
  let last := b.lastBreak.toList
  let ends :=
    match chomping with
    | .strip => []
    | .clip => last
    | .keep => b.breaks ++ last
  (ends ++ b.text).reverse

end BlockLines

/-- Reads the lines of a block scalar, which are indented by `indent`; `inLine` says that a line has
begun. -/
def readBlockLines (folded : Bool) (indent : Nat) :
    Bool → BlockLines → List Glyph → Option (BlockLines × List Glyph)
  | _, b, [] => some (b, [])
  | true, b, g :: gs =>
    if isBreak g.char then readBlockLines folded indent false { b with lastBreak := some g.char } gs
    else readBlockLines folded indent true { b with text := g.char :: b.text } gs
  | false, b, g :: gs =>
    if g.column < indent && g.char = ' ' then readBlockLines folded indent false b gs
    else if g.column < indent && g.char = '\t' then none
    else if isBreak g.char then
      readBlockLines folded indent false { b with breaks := g.char :: b.breaks } gs
    else if g.column = indent then
      let b := b.beginLine folded (isWhite g.char)
      readBlockLines folded indent true { b with text := g.char :: b.text } gs
    else some (b, g :: gs)

/-- Reads a block scalar after its first character, inside a collection that begins at column
`outer`, if any. -/
def readBlock (folded : Bool) (outer : Option Nat) (gs : List Glyph) : Option ScalarRead :=
  match readBlockHeader? gs with
  | none => none
  | some header =>
    let base := match outer with
      | some n => n
      | none => 0
    let start :=
      match header.increment with
      | some n => some ([], base + n, header.rest)
      | none =>
        (readLeadingBlank [] 0 header.rest).map fun (breaks, most, rest) =>
          let least := match outer with
            | some n => n + 1
            | none => 1
          (breaks, max most least, rest)
    match start with
    | none => none
    | some (breaks, indent, rest) =>
      match readBlockLines folded indent false { breaks := breaks } rest with
      | none => none
      | some (lines, rest) => some ⟨lines.finish header.chomping, false, rest⟩

end MachineDriver.Yaml
