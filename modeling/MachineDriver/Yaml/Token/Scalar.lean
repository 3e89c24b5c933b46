import MachineDriver.Text.Decimal
import MachineDriver.Yaml.Glyph

set_option autoImplicit false

/-!
# Scalars

Reading the text of a scalar in each of its forms. Every reader is one pass over the characters. The
white space between two words of a plain or quoted scalar is a gap: breaks in it are folded.
-/

namespace MachineDriver.Yaml

/-! ## Gaps -/

/-- White space between two words: the blanks before its first break, and its breaks. Both are kept
with the last character first. An escaped break makes a gap of its own kind, in which the breaks
that follow count but no blanks. -/
structure Gap where
  whites : List Char := []
  breaks : List Char := []
  escaped : Bool := false
  deriving Repr, Inhabited

namespace Gap

/-- Whether a line has ended in a gap. -/
def isBroken (g : Gap) : Bool :=
  g.escaped || !g.breaks.isEmpty

/-- A gap with one more white character, which does not count after a break. -/
def addWhite (g : Gap) (c : Char) : Gap :=
  if g.isBroken then g else { g with whites := c :: g.whites }

/-- A gap with one more break. -/
def addBreak (g : Gap) (c : Char) : Gap :=
  { g with breaks := c :: g.breaks }

/-- What a gap stands for: a single break for a blank, and of several breaks all but the first,
unless that is one of the two separators. -/
def text (g : Gap) : List Char :=
  if g.escaped then g.breaks.reverse
  else
    match g.breaks.reverse with
    | [] => g.whites.reverse
    | ['\n'] => [' ']
    | '\n' :: more => more
    | breaks => breaks

end Gap

/-! ## Plain scalars -/

/-- A character that ends a word inside brackets. -/
def isFlowMark (c : Char) : Bool :=
  c = ',' || c = '[' || c = ']' || c = '\x7b' || c = '\x7d'

/-- A scalar that was read: its text, whether a line ended after its last word, and what follows. -/
structure ScalarRead where
  text : List Char
  lineEnded : Bool
  rest : List Glyph
  deriving Repr, Inhabited

/-- Reads a plain scalar. `done` holds what was read, the last character first, and `gap` the white
space since then, if any. Lines that go on a scalar are indented to at least `indent`. -/
def readPlain (flow : Bool) (indent : Nat) :
    List Char → Option Gap → List Glyph → Option ScalarRead
  | done, gap, [] => some ⟨done.reverse, (gap.getD {}).isBroken, []⟩
  | done, gap, g :: gs =>
    let space := gap.getD {}
    let stop : Option ScalarRead := some ⟨done.reverse, space.isBroken, g :: gs⟩
    if isBreak g.char then readPlain flow indent done (some (space.addBreak g.char)) gs
    else if isWhite g.char then
      -- A tab may not indent a line that goes on a scalar.
      if space.isBroken && g.column < indent && g.char = '\t' then none
      else readPlain flow indent done (some (space.addWhite g.char)) gs
    -- A word begins here, unless it is not indented enough, or begins a comment or a document.
    else if gap.isSome && ((!flow && g.column < indent) || atMarker (g :: gs) || g.char = '#') then
      stop
    else if g.char = ':' && atWordEnd gs then stop
    else if flow && g.char = ':' && (startsWith '?' gs || gs.head?.any fun h => isFlowMark h.char)
      then none
    else if flow && isFlowMark g.char then stop
    else readPlain flow indent (g.char :: (space.text.reverse ++ done)) none gs

/-! ## Quoted scalars -/

/-- Reads what follows an opening single quote. A quote inside is written twice. -/
def readSingleQuoted : List Char → Option Gap → List Glyph → Option ScalarRead
  | _, _, [] => none
  | done, gap, g :: gs =>
    let space := gap.getD {}
    let before := space.text.reverse ++ done
    if space.isBroken && atMarker (g :: gs) then none
    else if isBreak g.char then readSingleQuoted done (some (space.addBreak g.char)) gs
    else if isWhite g.char then readSingleQuoted done (some (space.addWhite g.char)) gs
    else if g.char = '\'' then
      -- A second quote right after this one makes both stand for one.
      match gs with
      | h :: gs' =>
        if h.char = '\'' then readSingleQuoted ('\'' :: before) none gs'
        else some ⟨before.reverse, false, gs⟩
      | [] => some ⟨before.reverse, false, []⟩
    else readSingleQuoted (g.char :: before) none gs

/-- The character of a letter after a backslash. -/
def escape? (c : Char) : Option Char :=
  match c with
  | '0' => some '\x00'
  | 'a' => some '\x07'
  | 'b' => some '\x08'
  | 't' => some '\t'
  | '\t' => some '\t'
  | 'n' => some '\n'
  | 'v' => some '\x0b'
  | 'f' => some '\x0c'
  | 'r' => some '\r'
  | 'e' => some '\x1b'
  | ' ' => some ' '
  | '"' => some '"'
  | '/' => some '/'
  | '\\' => some '\\'
  | 'N' => some '\x85'
  | '_' => some '\xa0'
  | 'L' => some '\u2028'
  | 'P' => some '\u2029'
  | _ => none

/-- How many hexadecimal digits follow a letter after a backslash. -/
def escapeLength? (c : Char) : Option Nat :=
  match c with
  | 'x' => some 2
  | 'u' => some 4
  | 'U' => some 8
  | _ => none

/-- The character of a code point written in hexadecimal. -/
def readCodePoint? (ds : List Char) : Option Char :=
  match Text.readNumeral? 16 ds with
  | some n =>
    if n < 0xD800 ∨ (0xDFFF < n ∧ n ≤ 0x10FFFF) then some (Char.ofNat n) else none
  | none => none

/-- Where a reader of double-quoted text is inside an escape: past its backslash, or with digits
still to come, those read so far with the last one first. -/
inductive Escape where
  | outside
  | begun
  | digits (owed : Nat) (seen : List Char)
  deriving Repr, Inhabited

/-- Reads what follows an opening double quote. -/
def readDoubleQuoted : Escape → List Char → Option Gap → List Glyph → Option ScalarRead
  | _, _, _, [] => none
  | .begun, done, gap, g :: gs =>
    -- A break after a backslash joins two lines without a blank.
    if isBreak g.char then readDoubleQuoted .outside done (some { escaped := true }) gs
    else
      match escape? g.char, escapeLength? g.char with
      | some c, _ => readDoubleQuoted .outside (c :: done) none gs
      | none, some n => readDoubleQuoted (.digits n []) done gap gs
      | none, none => none
  | .digits owed seen, done, gap, g :: gs =>
    let seen := g.char :: seen
    if owed = 1 then
      match readCodePoint? seen.reverse with
      | some c => readDoubleQuoted .outside (c :: done) none gs
      | none => none
    else readDoubleQuoted (.digits (owed - 1) seen) done gap gs
  | .outside, done, gap, g :: gs =>
    let space := gap.getD {}
    let before := space.text.reverse ++ done
    if space.isBroken && atMarker (g :: gs) then none
    else if isBreak g.char then readDoubleQuoted .outside done (some (space.addBreak g.char)) gs
    else if isWhite g.char then readDoubleQuoted .outside done (some (space.addWhite g.char)) gs
    else if g.char = '"' then some ⟨before.reverse, false, gs⟩
    else if g.char = '\\' then readDoubleQuoted .begun before none gs
    else readDoubleQuoted .outside (g.char :: before) none gs

end MachineDriver.Yaml
