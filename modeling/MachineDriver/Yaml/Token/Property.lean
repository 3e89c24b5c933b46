import MachineDriver.Text.Decimal
import MachineDriver.Text.Utf8
import MachineDriver.Yaml.Glyph
import MachineDriver.Yaml.Token

set_option autoImplicit false

/-!
# Anchors, tags and directives

Reading the names that a node can be given, and the lines before a document that say how tags are
abbreviated. A tag is kept as bytes, since it may be written with escapes.
-/

namespace MachineDriver.Yaml

/-! ## Anchors -/

/-- Reads a name after its mark: letters, digits, underscores and dashes, ended by something that
can follow a node's name. -/
def readName? (gs : List Glyph) : Option (String × List Glyph) :=
  let name := gs.takeWhile fun g => isNameChar g.char
  let rest := gs.dropWhile fun g => isNameChar g.char
  let ended := atWordEnd rest ||
    rest.head?.any fun g => "?:,]\x7d%@\x60".toList.contains g.char
  if name.isEmpty || !ended then none else some (String.ofList (name.map Glyph.char), rest)

/-! ## Tags -/

/-- A character that stands for itself in a tag. -/
def isTagChar (verbatim : Bool) (c : Char) : Bool :=
  isNameChar c || ";/?:@&=+$.!~*\x27()".toList.contains c
    || (verbatim && (c = ',' || c = '[' || c = ']'))

/-- How many bytes follow the first byte of a character, by its first bits. -/
def followers? (byte : Nat) : Option Nat :=
  if byte < 0x80 then some 0
  else if byte < 0xC0 then none
  else if byte < 0xE0 then some 1
  else if byte < 0xF0 then some 2
  else if byte < 0xF8 then some 3
  else none

/-- Reads the bytes of a tag. `owed` is the number of bytes that an escaped character still lacks;
they have to be escaped too. The bytes read so far come last first. -/
def readTagBytes? (verbatim : Bool) :
    Nat → List UInt8 → List Glyph → Option (List UInt8 × List Glyph)
  | owed, bytes, g :: g' :: g'' :: gs =>
    if g.char = '%' then
      match Text.readBelow? 16 256 [g'.char, g''.char] with
      | none => none
      | some n =>
        if owed = 0 then
          match followers? n with
          | none => none
          | some k => readTagBytes? verbatim k (UInt8.ofNat n :: bytes) gs
        else if 0x80 ≤ n ∧ n < 0xC0 then
          readTagBytes? verbatim (owed - 1) (UInt8.ofNat n :: bytes) gs
        else none
    else if owed ≠ 0 then none
    else if isTagChar verbatim g.char then
      readTagBytes? verbatim 0 (UInt8.ofNat g.char.toNat :: bytes) (g' :: g'' :: gs)
    else some (bytes.reverse, g :: g' :: g'' :: gs)
  | owed, bytes, g :: gs =>
    if g.char = '%' || owed ≠ 0 then none
    else if isTagChar verbatim g.char then
      readTagBytes? verbatim 0 (UInt8.ofNat g.char.toNat :: bytes) gs
    else some (bytes.reverse, g :: gs)
  | owed, bytes, [] => if owed = 0 then some (bytes.reverse, []) else none

/-- Reads a handle: an exclamation mark, and perhaps a name and a second mark. The flag says that
the second mark was there. -/
def readHandle? (gs : List Glyph) : Option (List Char × Bool × List Glyph) :=
  match gs with
  | [] => none
  | g :: gs =>
    if g.char ≠ '!' then none
    else
      let name := (gs.takeWhile fun g => isNameChar g.char).map Glyph.char
      let rest := gs.dropWhile fun g => isNameChar g.char
      match rest with
      | h :: rest' =>
        if h.char = '!' then some (name, true, rest') else some (name, false, rest)
      | [] => some (name, false, [])

/-- The ASCII bytes of a name. -/
def nameBytes (name : List Char) : List UInt8 :=
  name.map fun c => UInt8.ofNat c.toNat

/-- Bytes up to a zero byte, which ends every tag. -/
def beforeZero (bytes : List UInt8) : List UInt8 :=
  bytes.takeWhile (· ≠ 0)

/-- Reads a tag, its first mark included. -/
def readTag? (flow : Bool) (gs : List Glyph) : Option (Token × List Glyph) :=
  let read : Option (String × List UInt8 × List Glyph) :=
    match gs with
    | g :: h :: rest =>
      if g.char = '!' && h.char = '<' then
        match readTagBytes? true 0 [] rest with
        | some (bytes, e :: rest) =>
          if e.char = '>' && !bytes.isEmpty then some ("", bytes, rest) else none
        | _ => none
      else short gs
    | _ => short gs
  match read with
  | none => none
  | some (handle, suffix, rest) =>
    if atWordEnd rest || (flow && startsWith ',' rest) then
      some (.tag handle (beforeZero suffix), rest)
    else none
where
  /-- Reads a tag that begins with a handle. A single mark with nothing after it is a tag of its
  own; a name after a single mark is the front of the suffix. -/
  short (gs : List Glyph) : Option (String × List UInt8 × List Glyph) :=
    match readHandle? gs with
    | none => none
    | some (name, true, rest) =>
      match readTagBytes? false 0 [] rest with
      | some (bytes, rest) =>
        if bytes.isEmpty then none else some (String.ofList ('!' :: name ++ ['!']), bytes, rest)
      | none => none
    | some (name, false, rest) =>
      match readTagBytes? false 0 [] rest with
      | some (bytes, rest) =>
        match nameBytes name ++ bytes with
        | [] => some ("", [0x21], rest)
        | suffix => some ("!", suffix, rest)
      | none => none

/-! ## Directives -/

/-- The value of the digits of a version number, which has at most nine. -/
def readVersionPart? (gs : List Glyph) : Option (Nat × List Glyph) :=
  let ds := gs.takeWhile fun g => Text.isDigit g.char
  if ds.length ≤ 9 then
    (Text.readNumeral? 10 (ds.map Glyph.char)).map fun n =>
      (n, gs.dropWhile fun g => Text.isDigit g.char)
  else none

/-- Reads a version number. -/
def readVersion? (gs : List Glyph) : Option (Token × List Glyph) :=
  match readVersionPart? gs with
  | some (major, dot :: gs) =>
    if dot.char = '.' then
      (readVersionPart? gs).map fun (minor, gs) => (.version major minor, gs)
    else none
  | _ => none

/-- Reads a handle and the bytes that it stands for. -/
def readAbbreviation? (gs : List Glyph) : Option (Token × List Glyph) :=
  match readHandle? gs with
  | none => none
  | some (name, closed, rest) =>
    let ended := rest.head?.any fun g => isWhite g.char
    if (closed || name.isEmpty) && ended then
      match readTagBytes? true 0 [] (afterWhite rest) with
      | some (bytes, rest) =>
        if bytes.isEmpty || !atWordEnd rest then none
        else
          let handle := String.ofList ('!' :: name ++ (if closed then ['!'] else []))
          some (.handle handle (beforeZero bytes), rest)
      | none => none
    else none

/-- Reads a directive after its percent sign, with the line that it is on. -/
def readDirective? (gs : List Glyph) : Option (Token × List Glyph) :=
  let name := (gs.takeWhile fun g => isNameChar g.char).map Glyph.char
  let rest := gs.dropWhile fun g => isNameChar g.char
  let read :=
    if !atWordEnd rest then none
    else if name = ['Y', 'A', 'M', 'L'] then readVersion? (afterWhite rest)
    else if name = ['T', 'A', 'G'] then readAbbreviation? (afterWhite rest)
    else none
  match read with
  | none => none
  | some (token, rest) =>
    let rest := afterWhite rest
    let rest := if startsWith '#' rest then toLineEnd rest else rest
    match rest with
    | [] => some (token, [])
    | g :: rest => if isBreak g.char then some (token, rest) else none

end MachineDriver.Yaml
