set_option autoImplicit false

/-!
# Characters and their places

A YAML text is read as a list of characters that know their line and column. All ways to write a
line break but the two Unicode separators are made one character first, so that a break is always
one character.
-/

namespace MachineDriver.Yaml

/-! ## Classes -/

/-- A character that ends a line. -/
def isBreak (c : Char) : Bool :=
  c = '\n' || c = '\r' || c = '\x85' || c = '\u2028' || c = '\u2029'

/-- A blank or a tab. -/
def isWhite (c : Char) : Bool :=
  c = ' ' || c = '\t'

/-- A character that may stand in a text at all. -/
def isAllowed (c : Char) : Bool :=
  let n := c.toNat
  n == 0x09 || n == 0x0A || n == 0x0D || (0x20 ≤ n && n ≤ 0x7E) || n == 0x85
    || (0xA0 ≤ n && n ≤ 0xD7FF) || (0xE000 ≤ n && n ≤ 0xFFFD) || 0x10000 ≤ n

/-- A character of a name: an ASCII letter, a digit, an underscore or a dash. -/
def isNameChar (c : Char) : Bool :=
  let n := c.toNat
  (48 ≤ n && n ≤ 57) || (65 ≤ n && n ≤ 90) || (97 ≤ n && n ≤ 122) || c = '_' || c = '-'

/-! ## Places -/

/-- A character with the line and the column where it stands. -/
structure Glyph where
  char : Char
  line : Nat
  column : Nat
  deriving DecidableEq, Repr, Inhabited

/-- Characters in which every break is one line feed, the two separators apart. -/
def unifyBreaks : List Char → List Char
  | [] => []
  | '\r' :: '\n' :: cs => '\n' :: unifyBreaks cs
  | c :: cs => (if c = '\r' || c = '\x85' then '\n' else c) :: unifyBreaks cs

/-- Characters with their places, the first of them at a given one. -/
def placeFrom (line column : Nat) : List Char → List Glyph
  | [] => []
  | c :: cs =>
    ⟨c, line, column⟩ :: (if isBreak c then placeFrom (line + 1) 0 cs
      else placeFrom line (column + 1) cs)

/-- The characters of a text with their places; a byte order mark takes up its column. -/
def glyphs (cs : List Char) : List Glyph :=
  match placeFrom 0 0 (unifyBreaks cs) with
  | [] => []
  | g :: gs => if g.char = '\uFEFF' then gs else g :: gs

/-! ## Looking ahead -/

/-- Whether a word ends before the given characters. -/
def atWordEnd : List Glyph → Bool
  | [] => true
  | g :: _ => isWhite g.char || isBreak g.char

/-- Whether the next character is the given one. -/
def startsWith (c : Char) : List Glyph → Bool
  | [] => false
  | g :: _ => g.char = c

/-- What follows a mark of three equal characters at the start of a line, if it is one word. -/
def afterMarker? (c : Char) : List Glyph → Option (List Glyph)
  | g :: g' :: g'' :: rest =>
    if g.column = 0 && g.char = c && g'.char = c && g''.char = c && atWordEnd rest then some rest
    else none
  | _ => none

/-- Whether a mark that starts or ends a document comes next. -/
def atMarker (gs : List Glyph) : Bool :=
  (afterMarker? '-' gs).isSome || (afterMarker? '.' gs).isSome

/-- The characters from the next line break on. -/
def toLineEnd (gs : List Glyph) : List Glyph :=
  gs.dropWhile fun g => !isBreak g.char

/-- The characters after blanks and tabs. -/
def afterWhite (gs : List Glyph) : List Glyph :=
  gs.dropWhile fun g => isWhite g.char

end MachineDriver.Yaml
