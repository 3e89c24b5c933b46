import MachineDriver.Text.Decimal
import MachineDriver.Yaml.Glyph
import MachineDriver.Yaml.Plain

set_option autoImplicit false

/-!
# Scalar styles

How a text is written as a scalar. A text that holds a line feed is written as a block; any other is
written as it is where that can be read back as the same text, and between single quotes where it
cannot. Texts that fit none of these forms are written between double quotes, with escapes.
-/

namespace MachineDriver.Yaml

/-- The form of a scalar. -/
inductive Style where
  | plain
  | single
  | double
  | literal
  deriving DecidableEq, Repr, Inhabited

/-! ## What a text holds -/

/-- A character that may be written as it is. -/
def isShown (c : Char) : Bool :=
  let n := c.toNat
  n == 0x0A || (0x20 ≤ n && n ≤ 0x7E) || (0xA0 ≤ n && n ≤ 0xD7FF)
    || (0xE000 ≤ n && n ≤ 0xFFFD && n != 0xFEFF) || 0x10000 ≤ n

/-- Whether a word ends before the given characters; a zero character ends one too. -/
def endsWord : List Char → Bool
  | [] => true
  | c :: _ => isWhite c || isBreak c || c = '\x00'

/-- Whether a mark follows the start of a text: a colon that ends a word, or a number sign that
begins one. -/
def holdsMark : Bool → List Char → Bool
  | _, [] => false
  | wordEnded, c :: cs =>
    (c = ':' && endsWord cs) || (c = '#' && wordEnded) || holdsMark (endsWord [c]) cs

/-- Whether a text cannot be plain because of a mark in it, or because of how it begins. -/
def hasMarks (cs : List Char) : Bool :=
  match cs with
  | [] => false
  | c :: rest =>
    ['-', '-', '-'].isPrefixOf cs || ['.', '.', '.'].isPrefixOf cs
      || "#,[]\x7b\x7d&*!|>\x27\"%@\x60".toList.contains c
      || ((c = '?' || c = ':' || c = '-') && endsWord rest)
      || holdsMark (endsWord [c]) rest

/-- Whether somewhere in a text one kind of character comes right before another. -/
def hasPair (first second : Char → Bool) : List Char → Bool
  | c :: d :: cs => (first c && second d) || hasPair first second (d :: cs)
  | _ => false

/-- A space, which unlike a tab may be written as it is. -/
def isSpace (c : Char) : Bool :=
  c = ' '

/-- Whether a text has more than one line. -/
def isMultiline (cs : List Char) : Bool :=
  cs.any isBreak

/-- Whether quotes or blocks without escapes would lose something: a character that cannot be shown,
or a space before a break. -/
def needsEscapes (cs : List Char) : Bool :=
  cs.any (fun c => !isShown c) || hasPair isSpace isBreak cs

/-- Whether a text can be plain. -/
def allowsPlain (cs : List Char) : Bool :=
  !(needsEscapes cs || isMultiline cs || hasMarks cs || cs.head?.any isSpace
    || cs.getLast?.any isSpace)

/-- Whether a text can stand between single quotes. -/
def allowsSingle (cs : List Char) : Bool :=
  !(needsEscapes cs || hasPair isBreak isSpace cs)

/-- Whether a text can be a block. -/
def allowsLiteral (cs : List Char) : Bool :=
  !(needsEscapes cs || cs.isEmpty || cs.getLast?.any isSpace)

/-- Whether a plain scalar of these characters would mean something else than the text of them. -/
def isAmbiguous (cs : List Char) : Bool :=
  isZeroLed cs
    || match ofPlain? cs with
      | some (.text _) => false
      | _ => true

/-- The style of a text. -/
def styleOf (cs : List Char) : Style :=
  -- A block shows the lines of a text as they are, so it comes before all other forms.
  if cs.contains '\n' then if allowsLiteral cs then .literal else .double
  else if allowsPlain cs && !isAmbiguous cs then .plain
  else if allowsSingle cs then .single
  else .double

/-! ## Writing -/

/-- Spaces at the start of a line. -/
def spaces (n : Nat) : List Char :=
  List.replicate n ' '

/-- Characters of which each line after a break is indented, empty lines apart. The flag says that a
line begins. -/
def indentLines (column : Nat) : Bool → List Char → List Char
  | _, [] => []
  | start, c :: cs =>
    if isBreak c then c :: indentLines column true cs
    else if start then spaces column ++ c :: indentLines column false cs
    else c :: indentLines column false cs

/-- A text between single quotes. A quote is written twice; a line feed cannot occur. -/
def singleText (column : Nat) (cs : List Char) : List Char :=
  let body := indentLines column false (cs.flatMap fun c => if c = '\'' then ['\'', '\''] else [c])
  '\'' :: body ++ (if cs.getLast?.any isBreak then spaces column else []) ++ ['\'']

/-- The hexadecimal digits of a number, of which there are a fixed number. -/
def hexDigits : Nat → Nat → List Char
  | 0, _ => []
  | k + 1, n => hexDigits k (n / 16) ++ [Text.upperHexDigit (n % 16)]

/-- A character as an escape. -/
def escapeText (c : Char) : List Char :=
  let n := c.toNat
  '\\' ::
    match n with
    | 0x00 => ['0']
    | 0x07 => ['a']
    | 0x08 => ['b']
    | 0x09 => ['t']
    | 0x0A => ['n']
    | 0x0B => ['v']
    | 0x0C => ['f']
    | 0x0D => ['r']
    | 0x1B => ['e']
    | 0x22 => ['"']
    | 0x5C => ['\\']
    | 0x85 => ['N']
    | 0xA0 => ['_']
    | 0x2028 => ['L']
    | 0x2029 => ['P']
    | n =>
      if n ≤ 0xFF then 'x' :: hexDigits 2 n
      else if n ≤ 0xFFFF then 'u' :: hexDigits 4 n
      else 'U' :: hexDigits 8 n

/-- A text between double quotes. -/
def doubleText (cs : List Char) : List Char :=
  '"' :: cs.flatMap (fun c =>
    if !isShown c || isBreak c || c = '"' || c = '\\' then escapeText c else [c]) ++ ['"']

/-- The signs after the mark of a block: its indentation, if its first line does not show it, and
what becomes of the breaks at its end. -/
def literalHints (cs : List Char) : List Char :=
  -- Where the first line begins with a blank its indentation cannot be seen, so it is told.
  (if cs.head?.any fun c => isSpace c || isBreak c then ['2'] else [])
    ++ match cs.reverse with
      | c :: rest =>
        if !isBreak c then ['-']
        else
          match rest with
          | [] => ['+']
          | d :: _ => if isBreak d then ['+'] else []
      | [] => ['-']

/-- A text as a block whose lines begin at a column. -/
def literalText (column : Nat) (cs : List Char) : List Char :=
  '|' :: literalHints cs ++ '\n' :: indentLines column true cs

/-- A text as a scalar; further lines of it begin at a column. -/
def scalarText (column : Nat) (cs : List Char) : List Char :=
  match styleOf cs with
  | .plain => cs
  | .single => singleText column cs
  | .double => doubleText cs
  | .literal => literalText column cs

end MachineDriver.Yaml
