import MachineDriver.Yaml.Token.BlockScalar
import MachineDriver.Yaml.Token.Property

set_option autoImplicit false

/-!
# Token streams

Cutting a text into tokens. Collections that are written by indentation are opened and closed here,
so that the tokens are balanced. What makes a node the key of a mapping comes only after it: each
token that can begin a key is kept as a candidate, on which a colon on the same line decides.
-/

namespace MachineDriver.Yaml

/-- A token that begins a key if a colon follows in time. -/
structure Candidate where
  /-- Whether the token stands where only a key can. -/
  required : Bool
  /-- How many tokens come before it. -/
  position : Nat
  line : Nat
  column : Nat
  deriving Repr, Inhabited

/-- Whether a colon is near enough to a candidate to make a key of it: on the same line, and at
most 1024 characters away. -/
def Candidate.reaches (c : Candidate) (g : Glyph) : Bool :=
  c.line = g.line && g.column ≤ c.column + 1024

/-- Where the reader of a text is: the tokens so far, the last first, and their number; the columns
of the open collections that are written by indentation, innermost first; whether a key may begin
here; and the candidates of the innermost bracket and of those around it. -/
structure Lexer where
  tokens : List Token := []
  count : Nat := 0
  indents : List Nat := []
  keyAllowed : Bool := true
  candidate : Option Candidate := none
  outer : List (Option Candidate) := []
  deriving Repr, Inhabited

namespace Lexer

/-- Whether the reader is inside brackets. -/
def inFlow (l : Lexer) : Bool :=
  !l.outer.isEmpty

/-- One more token. -/
def add (l : Lexer) (t : Token) : Lexer :=
  { l with tokens := t :: l.tokens, count := l.count + 1 }

/-- A token put in after the first `position` ones. -/
def insertAt (l : Lexer) (position : Nat) (t : Token) : Lexer :=
  let later := l.count - position
  { l with tokens := l.tokens.take later ++ t :: l.tokens.drop later, count := l.count + 1 }

/-! ## Indentation -/

/-- The columns that are not right of a column, and the number of those that are. -/
def closeTo (column : Nat) : List Nat → List Nat × Nat
  | [] => ([], 0)
  | n :: ns =>
    if column < n then
      let (rest, closed) := closeTo column ns
      (rest, closed + 1)
    else (n :: ns, 0)

/-- Closes a number of collections. -/
def addEnds (l : Lexer) : Nat → Lexer
  | 0 => l
  | n + 1 => (l.add .blockEnd).addEnds n

/-- Closes the collections right of a column. -/
def unroll (l : Lexer) (column : Nat) : Lexer :=
  if l.inFlow then l
  else
    let (indents, closed) := closeTo column l.indents
    addEnds { l with indents := indents } closed

/-- Closes all collections that are written by indentation. -/
def unrollAll (l : Lexer) : Lexer :=
  if l.inFlow then l else addEnds { l with indents := [] } l.indents.length

/-- Whether a column is right of the innermost collection. -/
def isDeeper (l : Lexer) (column : Nat) : Bool :=
  match l.indents with
  | [] => true
  | n :: _ => n < column

/-- Opens a collection at a column, before the token of a position, if it lies deeper than the
innermost one. -/
def roll (l : Lexer) (column position : Nat) (t : Token) : Lexer :=
  if !l.inFlow && l.isDeeper column then
    { l.insertAt position t with indents := column :: l.indents }
  else l

/-! ## Candidates -/

/-- Gives up the candidate for a key, which must not be a required one. -/
def dropCandidate? (l : Lexer) : Option Lexer :=
  match l.candidate with
  | some c => if c.required then none else some { l with candidate := none }
  | none => some l

/-- Makes the next token the candidate for a key, where a key may begin. -/
def saveCandidate? (l : Lexer) (g : Glyph) : Option Lexer :=
  if l.keyAllowed then
    let required := !l.inFlow && l.indents.head? = some g.column
    l.dropCandidate?.map fun l =>
      { l with candidate := some ⟨required, l.count, g.line, g.column⟩ }
  else some l

/-! ## Single tokens -/

/-- A token that goes on a collection in brackets or ends one. -/
def addFlowMark? (l : Lexer) (t : Token) (keyAllowed : Bool) : Option Lexer :=
  l.dropCandidate?.map fun l => { l.add t with keyAllowed := keyAllowed }

/-- Opens a bracket. -/
def openFlow? (l : Lexer) (g : Glyph) (t : Token) : Option Lexer :=
  (l.saveCandidate? g).map fun l =>
    { l.add t with outer := l.candidate :: l.outer, candidate := none, keyAllowed := true }

/-- Closes a bracket. -/
def closeFlow? (l : Lexer) (t : Token) : Option Lexer :=
  (l.addFlowMark? t false).map fun l =>
    match l.outer with
    | [] => l
    | c :: outer => { l with candidate := c, outer := outer }

/-- A mark that starts or ends a document. -/
def addMarker? (l : Lexer) (t : Token) : Option Lexer :=
  l.unrollAll.dropCandidate?.map fun l => { l.add t with keyAllowed := false }

/-- A dash before an item. -/
def addEntry? (l : Lexer) (g : Glyph) : Option Lexer :=
  if l.inFlow then l.addFlowMark? .blockEntry true
  else if l.keyAllowed then
    (l.roll g.column l.count .blockSequenceStart).addFlowMark? .blockEntry true
  else none

/-- A question mark before a key. -/
def addKey? (l : Lexer) (g : Glyph) : Option Lexer :=
  if l.inFlow then l.addFlowMark? .key false
  else if l.keyAllowed then
    (l.roll g.column l.count .blockMappingStart).addFlowMark? .key true
  else none

/-- A colon that makes no key. -/
def addBareValue? (l : Lexer) (g : Glyph) : Option Lexer :=
  if l.inFlow then some { l.add .value with keyAllowed := false }
  else if l.keyAllowed then
    some { (l.roll g.column l.count .blockMappingStart).add .value with keyAllowed := true }
  else none

/-- A colon before a value. It makes a key of the candidate, if there is one that still reaches
it. -/
def addValue? (l : Lexer) (g : Glyph) : Option Lexer :=
  match l.candidate with
  | none => l.addBareValue? g
  | some c =>
    let l := { l with candidate := none }
    if c.reaches g then
      -- The mark of the key goes in front of the candidate, and the start of the mapping before it.
      let l := { l.insertAt c.position .key with keyAllowed := false }
      some ((l.roll c.column c.position .blockMappingStart).add .value)
    else if c.required then none
    else l.addBareValue? g

/-- A token that can begin a key and after which none can begin. -/
def addNode? (l : Lexer) (g : Glyph) (read : Option (Token × List Glyph)) :
    Option (Lexer × List Glyph) :=
  match l.saveCandidate? g, read with
  | some l, some (t, rest) => some ({ l.add t with keyAllowed := false }, rest)
  | _, _ => none

/-- The scalar token of a reader's result. -/
def scalarToken (plain : Bool) (r : Option ScalarRead) : Option (Token × List Glyph) :=
  r.map fun r => (.scalar plain r.text, r.rest)

/-- A block scalar, after which a key can begin. -/
def addBlock? (l : Lexer) (folded : Bool) (gs : List Glyph) : Option (Lexer × List Glyph) :=
  match l.dropCandidate?, readBlock folded l.indents.head? gs with
  | some l, some r => some ({ l.add (.scalar false r.text) with keyAllowed := true }, r.rest)
  | _, _ => none

/-- A plain scalar; a key can begin after it if its last line has ended. -/
def addPlainScalar? (l : Lexer) (g : Glyph) (gs : List Glyph) : Option (Lexer × List Glyph) :=
  let indent :=
    match l.indents with
    | [] => 0
    | n :: _ => n + 1
  match l.saveCandidate? g, readPlain l.inFlow indent [] none (g :: gs) with
  | some l, some r =>
    some ({ l.add (.scalar true r.text) with keyAllowed := r.lineEnded }, r.rest)
  | _, _ => none

/-- Whether a plain scalar can begin with a character, given those after it. -/
def startsPlain (flow : Bool) (g : Glyph) (gs : List Glyph) : Bool :=
  !(("-?:,[]\x7b\x7d#&*!|>\x27\"%@\x60".toList.contains g.char) || isWhite g.char)
    || (g.char = '-' && !(gs.head?.any fun h => isWhite h.char))
    || (!flow && (g.char = '?' || g.char = ':') && !atWordEnd gs)

/-- Reads the token that begins with a character. -/
def readToken? (l : Lexer) (g : Glyph) (gs : List Glyph) : Option (Lexer × List Glyph) :=
  let mark (l : Option Lexer) : Option (Lexer × List Glyph) := l.map fun l => (l, gs)
  let c := g.char
  -- Directives and the marks of documents stand in the first column only.
  if g.column = 0 && c = '%' then
    match l.unrollAll.dropCandidate?, readDirective? gs with
    | some l, some (t, rest) => some ({ l.add t with keyAllowed := false }, rest)
    | _, _ => none
  else
    match afterMarker? '-' (g :: gs), afterMarker? '.' (g :: gs) with
    | some rest, _ => (l.addMarker? .documentStart).map fun l => (l, rest)
    | none, some rest => (l.addMarker? .documentEnd).map fun l => (l, rest)
    | none, none =>
      -- Brackets, and what divides their contents.
      if c = '[' then mark (l.openFlow? g .flowSequenceStart)
      else if c = '\x7b' then mark (l.openFlow? g .flowMappingStart)
      else if c = ']' then mark (l.closeFlow? .flowSequenceEnd)
      else if c = '\x7d' then mark (l.closeFlow? .flowMappingEnd)
      else if c = ',' then mark (l.addFlowMark? .flowEntry true)
      -- Marks that only the blank after them tells from words.
      else if c = '-' && atWordEnd gs then mark (l.addEntry? g)
      else if c = '?' && (l.inFlow || atWordEnd gs) then mark (l.addKey? g)
      else if c = ':' && (l.inFlow || atWordEnd gs) then mark (l.addValue? g)
      -- Aliases and the properties of nodes.
      else if c = '*' then
        l.addNode? g ((readName? gs).map fun (n, rest) => (.alias n, rest))
      else if c = '&' then
        l.addNode? g ((readName? gs).map fun (n, rest) => (.anchor n, rest))
      else if c = '!' then l.addNode? g (readTag? l.inFlow (g :: gs))
      -- Scalars. Inside brackets there are no blocks.
      else if c = '|' && !l.inFlow then l.addBlock? false gs
      else if c = '>' && !l.inFlow then l.addBlock? true gs
      else if c = '\'' then l.addNode? g (scalarToken false (readSingleQuoted [] none gs))
      else if c = '"' then
        l.addNode? g (scalarToken false (readDoubleQuoted .outside [] none gs))
      else if startsPlain l.inFlow g gs then l.addPlainScalar? g gs
      else none

/-! ## The stream -/

/-- Passes over blanks, comments and breaks; a key may begin after a break that is not inside
brackets. Tabs may only stand where no key can begin. -/
def skipGap (flow : Bool) : Bool → Bool → List Glyph → Bool × List Glyph
  | _, allowed, [] => (allowed, [])
  | true, allowed, g :: gs =>
    if isBreak g.char then skipGap flow false (allowed || !flow) gs
    else skipGap flow true allowed gs
  | false, allowed, g :: gs =>
    if g.char = ' ' || ((flow || !allowed) && g.char = '\t') then skipGap flow false allowed gs
    else if g.char = '#' then skipGap flow true allowed gs
    else if isBreak g.char then skipGap flow false (allowed || !flow) gs
    else (allowed, g :: gs)

/-- The tokens of a text. Each step reads one token, so there are no more steps than characters. -/
def run : Nat → Lexer → List Glyph → Option (List Token)
  | 0, _, _ => none
  | fuel + 1, l, gs =>
    match skipGap l.inFlow false l.keyAllowed gs with
    | (_, []) => l.unrollAll.dropCandidate?.map fun l => l.tokens.reverse
    | (allowed, g :: gs) =>
      -- Collections that lie deeper than the next token end before it.
      match ({ l with keyAllowed := allowed }.unroll g.column).readToken? g gs with
      | some (l, rest) => run fuel l rest
      | none => none

end Lexer

/-- The tokens of a text, if it can be cut into tokens. -/
def tokens? (cs : List Char) : Option (List Token) :=
  if cs.all isAllowed then
    let gs := glyphs cs
    Lexer.run (gs.length + 1) {} gs
  else none

end MachineDriver.Yaml
