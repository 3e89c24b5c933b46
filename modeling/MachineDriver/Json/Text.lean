import MachineDriver.Json.Basic
import MachineDriver.Text.Decimal
import MachineDriver.Text.Utf8

set_option autoImplicit false

/-!
# JSON texts

Reading a byte string as JSON. The reader always returns a tree; where the text stops being JSON the
tree ends in a fault, so that a typed reader can tell whether it would have stopped before.
Texts inside a document that are no characters (a lone surrogate, bytes that are no UTF-8) are
faults that can be skipped.
-/

namespace MachineDriver.Json

/-- What is left of a text after a tree, or nothing when the tree ends in a fault. -/
abbrev Rest := Option (List UInt8)

/-- The blanks that may stand between the parts of a JSON text. -/
def isBlankByte (b : UInt8) : Bool :=
  b = 0x20 || b = 0x0A || b = 0x0D || b = 0x09

/-- A text from its first byte that is no blank. -/
def skipBlanks (bytes : List UInt8) : List UInt8 :=
  bytes.dropWhile isBlankByte

/-- Whether a byte is an ASCII digit. -/
def isDigitByte (b : UInt8) : Bool :=
  0x30 ≤ b && b ≤ 0x39

/-- The value of ASCII digits. -/
def digitsValue (ds : List UInt8) : Nat :=
  ds.foldl (fun n d => n * 10 + (d.toNat - 0x30)) 0

/-- What follows a fixed word at the front of a text. -/
def afterWord? (word : List UInt8) (bytes : List UInt8) : Option (List UInt8) :=
  if word.isPrefixOf bytes then some (bytes.drop word.length) else none

/-! ## Numbers -/

/-- The digits of a fraction, when a point follows; a point without digits is no number. -/
def readFraction? (bytes : List UInt8) : Option (List UInt8 × List UInt8) :=
  match bytes with
  | 0x2E :: rest =>
    let ds := rest.takeWhile isDigitByte
    if ds.isEmpty then none else some (ds, rest.dropWhile isDigitByte)
  | _ => some ([], bytes)

/-- The power of ten, when an exponent follows; the flag says that one was written. -/
def readExponent? (bytes : List UInt8) : Option (Option Int × List UInt8) :=
  match bytes with
  | e :: rest =>
    if e = 0x65 ∨ e = 0x45 then
      let (negative, rest) :=
        match rest with
        | 0x2D :: rest => (true, rest)
        | 0x2B :: rest => (false, rest)
        | rest => (false, rest)
      let ds := rest.takeWhile isDigitByte
      if ds.isEmpty then none
      else
        let n : Int := digitsValue ds
        some (some (if negative then -n else n), rest.dropWhile isDigitByte)
    else some (none, bytes)
  | [] => some (none, [])

/-- The number at the front of a text, after its sign. -/
def readNumber? (negative : Bool) (bytes : List UInt8) : Option (Number × List UInt8) :=
  let whole := bytes.takeWhile isDigitByte
  let rest := bytes.dropWhile isDigitByte
  match whole with
  | [] => none
  -- A number begins with a zero only if that is all of its whole part.
  | 0x30 :: _ :: _ => none
  | _ =>
    match readFraction? rest with
    | none => none
    | some (fraction, rest) =>
      match readExponent? rest with
      | none => none
      | some (exponent, rest) =>
        let digits := digitsValue (whole ++ fraction)
        let n : Int := if negative then -digits else digits
        -- A negative zero, and what is too large for 64 bits, are no integers.
        let plain := fraction.isEmpty && exponent.isNone
        let number :=
          if plain && (if negative then digits != 0 && -9223372036854775808 ≤ n
              else n < 18446744073709551616) then
            Number.integer n
          else
            .decimal negative digits (exponent.getD 0 - fraction.length)
        some (number, rest)

/-! ## Strings -/

/-- The value of four hexadecimal digits at the front of a text. -/
def readHex4? (bytes : List UInt8) : Option (Nat × List UInt8) :=
  match bytes with
  | a :: b :: c :: d :: rest =>
    match Text.readBelow? 16 65536 ([a, b, c, d].map fun x => Char.ofNat x.toNat) with
    | some n => some (n, rest)
    | none => none
  | _ => none

/-- The byte that a letter stands for after a backslash. -/
def escapedByte? (b : UInt8) : Option UInt8 :=
  if b = 0x22 ∨ b = 0x5C ∨ b = 0x2F then some b
  else if b = 0x62 then some 0x08
  else if b = 0x66 then some 0x0C
  else if b = 0x6E then some 0x0A
  else if b = 0x72 then some 0x0D
  else if b = 0x74 then some 0x09
  else none

/-- The contents of a string up to its closing quote, and what follows it. The contents are missing
where an escape is a lone surrogate; the whole is missing where the string is not closed, holds a
control, or has an escape that does not exist. -/
def readStringBody? : Nat → List UInt8 → Option (Option (List UInt8) × List UInt8)
  | 0, _ => none
  | fuel + 1, bytes =>
    match bytes with
    | [] => none
    | 0x22 :: rest => some (some [], rest)
    | 0x5C :: 0x75 :: rest =>
      match readHex4? rest with
      | none => none
      | some (n, rest) =>
        if 0xD800 ≤ n ∧ n < 0xDC00 then
          -- The first half of a pair, which makes a character with a second half after it.
          match rest with
          | 0x5C :: 0x75 :: low =>
            match readHex4? low with
            | none => none
            | some (m, after) =>
              if 0xDC00 ≤ m ∧ m < 0xE000 then
                prepend (String.utf8EncodeChar
                  (Char.ofNat (0x10000 + (n - 0xD800) * 0x400 + (m - 0xDC00))))
                  (readStringBody? fuel after)
              else lone (readStringBody? fuel rest)
          | _ => lone (readStringBody? fuel rest)
        else if 0xDC00 ≤ n ∧ n < 0xE000 then lone (readStringBody? fuel rest)
        else prepend (String.utf8EncodeChar (Char.ofNat n)) (readStringBody? fuel rest)
    | 0x5C :: b :: rest =>
      match escapedByte? b with
      | some b => prepend [b] (readStringBody? fuel rest)
      | none => none
    | b :: rest => if b < 0x20 then none else prepend [b] (readStringBody? fuel rest)
where
  /-- Puts bytes before the contents. -/
  prepend (front : List UInt8) (r : Option (Option (List UInt8) × List UInt8)) :
      Option (Option (List UInt8) × List UInt8) :=
    r.map fun (contents, rest) => (contents.map (front ++ ·), rest)
  /-- Marks the contents as missing. -/
  lone (r : Option (Option (List UInt8) × List UInt8)) :
      Option (Option (List UInt8) × List UInt8) :=
    r.map fun (_, rest) => (none, rest)

/-- The text of a string's contents, if they are characters. -/
def stringText? (contents : Option (List UInt8)) : Option String :=
  match contents with
  | none => none
  | some bytes =>
    match Text.Utf8.decode bytes with
    | .ok s => some s
    | .error _ => none

/-! ## Values -/

mutual

/-- The value at the front of a text. -/
def readValue : Nat → List UInt8 → Json × Rest
  | 0, _ => (.fault false, none)
  | fuel + 1, bytes =>
    match skipBlanks bytes with
    | [] => (.fault false, none)
    | 0x22 :: rest =>
      match readStringBody? (rest.length + 1) rest with
      | none => (.fault false, none)
      | some (contents, rest) =>
        match stringText? contents with
        | some s => (.string s, some rest)
        | none => (.fault true, some rest)
    | 0x5B :: rest =>
      match skipBlanks rest with
      | 0x5D :: rest => (.array [], some rest)
      | rest =>
        let (items, rest) := readItems fuel rest
        (.array items, rest)
    | 0x7B :: rest =>
      match skipBlanks rest with
      | 0x7D :: rest => (.object [], some rest)
      | rest =>
        let (fields, rest) := readFields fuel rest
        (.object fields, rest)
    | 0x2D :: rest =>
      match readNumber? true rest with
      | some (n, rest) => (.number n, some rest)
      | none => (.fault false, none)
    | b :: rest =>
      let word (w : String) (j : Json) : Json × Rest :=
        match afterWord? (Text.Utf8.encode w) (b :: rest) with
        | some rest => (j, some rest)
        | none => (.fault false, none)
      if b = 0x6E then word "null" .null
      else if b = 0x74 then word "true" (.bool true)
      else if b = 0x66 then word "false" (.bool false)
      else
        match readNumber? false (b :: rest) with
        | some (n, rest) => (.number n, some rest)
        | none => (.fault false, none)

/-- The items of an array up to its closing bracket. -/
def readItems : Nat → List UInt8 → List Json × Rest
  | 0, _ => ([.fault false], none)
  | fuel + 1, bytes =>
    match readValue fuel bytes with
    | (j, none) => ([j], none)
    | (j, some rest) =>
      match skipBlanks rest with
      | 0x5D :: rest => ([j], some rest)
      | 0x2C :: rest =>
        let (items, rest) := readItems fuel rest
        (j :: items, rest)
      | _ => ([j, .fault false], none)

/-- The fields of an object up to its closing brace. -/
def readFields : Nat → List UInt8 → List (String × Json) × Rest
  | 0, _ => ([("", .fault false)], none)
  | fuel + 1, bytes =>
    match skipBlanks bytes with
    | 0x22 :: rest =>
      match readStringBody? (rest.length + 1) rest with
      | none => ([("", .fault false)], none)
      | some (contents, rest) =>
        match stringText? contents, skipBlanks rest with
        | some name, 0x3A :: rest =>
          match readValue fuel rest with
          | (j, none) => ([(name, j)], none)
          | (j, some rest) =>
            match skipBlanks rest with
            | 0x7D :: rest => ([(name, j)], some rest)
            | 0x2C :: rest =>
              let (fields, rest) := readFields fuel rest
              ((name, j) :: fields, rest)
            | _ => ([(name, j), ("", .fault false)], none)
        | _, _ => ([("", .fault false)], none)
    | _ => ([("", .fault false)], none)

end

/-- The document of a text, and whether the text ends with it. -/
def ofBytes (bytes : List UInt8) : Json × Bool :=
  match readValue (2 * bytes.length + 2) bytes with
  | (j, none) => (j, true)
  | (j, some rest) => (j, (skipBlanks rest).isEmpty)

/-- A text read as a value: its document, with nothing but blanks after it. -/
def readText {α : Type} (read : Json → Except Error α) (bytes : List UInt8) : Except Error α :=
  let (j, complete) := ofBytes bytes
  match read j with
  | .ok v => if complete then .ok v else .error .malformed
  | .error e => .error e

end MachineDriver.Json
