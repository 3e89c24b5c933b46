import MachineDriver.Text.Decimal
import MachineDriver.Yaml.Basic

set_option autoImplicit false

/-!
# Plain scalars

What an unquoted scalar without a tag means: null, a truth value, a number, or else the text itself.
-/

namespace MachineDriver.Yaml

/-- A numeral with a sign: whether it is negative, and its other characters. -/
def splitSign : List Char → Bool × List Char
  | '-' :: cs => (true, cs)
  | '+' :: cs => (false, cs)
  | cs => (false, cs)

/-- The words for null. -/
def isNullWord (cs : List Char) : Bool :=
  let s := String.ofList cs
  s = "null" || s = "Null" || s = "NULL" || s = "~"

/-- The value of a word for a truth value. -/
def boolOfWord? (cs : List Char) : Option Bool :=
  let s := String.ofList cs
  if s = "true" || s = "True" || s = "TRUE" then some true
  else if s = "false" || s = "False" || s = "FALSE" then some false
  else none

/-- Digits after a leading zero, perhaps with a sign; they are no number. -/
def isZeroLed (cs : List Char) : Bool :=
  match (splitSign cs).2 with
  | '0' :: d :: ds => (d :: ds).all Text.isDigit
  | _ => false

/-- The magnitude of an integer without its sign, in the base that its first characters tell. -/
def magnitude? (cs : List Char) : Option Nat :=
  match cs with
  | '0' :: 'x' :: ds => Text.readNumeral? 16 ds
  | '0' :: 'o' :: ds => Text.readNumeral? 8 ds
  | '0' :: 'b' :: ds => Text.readNumeral? 2 ds
  | ds => Text.readNumeral? 10 ds

/-- What reading an integer gives: no integer, or an integer, which may be too large to be a
value. -/
inductive IntegerRead where
  | none
  | value (n : Int)
  | tooLarge
  deriving DecidableEq, Repr, Inhabited

/-- Reads an integer. One of more than 64 bits is too large, and one of more than 128 is none. -/
def readInteger (cs : List Char) : IntegerRead :=
  if isZeroLed cs then .none
  else
    let (negative, ds) := splitSign cs
    match magnitude? ds with
    | none => .none
    | some n =>
      if negative then
        if n ≤ twoTo 63 then .value (-n) else if n ≤ twoTo 127 then .tooLarge else .none
      else if n < twoTo 64 then .value n
      else if n < twoTo 128 then .tooLarge
      else .none

/-- The digits at the front of some characters, and what follows them. -/
def splitDigits (cs : List Char) : List Char × List Char :=
  (cs.takeWhile Text.isDigit, cs.dropWhile Text.isDigit)

/-- The value of digits, which is nought for none. -/
def digitsValue (ds : List Char) : Nat :=
  (Text.readDigits? 10 0 ds).getD 0

/-- The power of ten after the digits of a number. -/
def readPower? (cs : List Char) : Option Int :=
  match cs with
  | [] => some 0
  | c :: cs =>
    if c = 'e' || c = 'E' then
      let (negative, ds) := splitSign cs
      (Text.readNumeral? 10 ds).map fun n => if negative then -(n : Int) else n
    else none

/-- Reads a decimal number: digits, among which or beside which a point may stand, and perhaps a
power of ten. -/
def readDecimal? (cs : List Char) : Option Binary64 :=
  let (negative, cs) := splitSign cs
  let (whole, rest) := splitDigits cs
  let (fraction, rest) :=
    match rest with
    | '.' :: rest => splitDigits rest
    | rest => ([], rest)
  if whole.isEmpty && fraction.isEmpty then none
  else
    (readPower? rest).map fun power =>
      Binary64.ofDecimal negative (digitsValue (whole ++ fraction)) (power - fraction.length)

/-- Reads a number of binary floating point, which is finite unless it is one of the words for
infinity and for no number. -/
def readFloat? (cs : List Char) : Option Binary64 :=
  let unsigned :=
    match cs with
    | '+' :: rest => rest
    | cs => cs
  let s := String.ofList unsigned
  if s = ".inf" || s = ".Inf" || s = ".INF" then some (.infinite false)
  else if s = "-.inf" || s = "-.Inf" || s = "-.INF" then
    if unsigned.length = cs.length then some (.infinite true) else none
  else if s = ".nan" || s = ".NaN" || s = ".NAN" then
    if unsigned.length = cs.length then some .nan else none
  else if unsigned.length < cs.length && (splitSign unsigned).2.length < unsigned.length then none
  else
    match readDecimal? unsigned with
    | some x => if x.isFinite then some x else none
    | none => none

/-- What a plain scalar means; a number that is too large means nothing. -/
def ofPlain? (cs : List Char) : Option Yaml :=
  if cs.isEmpty || isNullWord cs then some .null
  else
    match boolOfWord? cs with
    | some b => some (.bool b)
    | none =>
      match readInteger cs with
      | .value n => some (.integer n)
      | .tooLarge => none
      | .none =>
        if isZeroLed cs then some (.text (String.ofList cs))
        else
          match readFloat? cs with
          | some x => some (.decimal x)
          | none => some (.text (String.ofList cs))

end MachineDriver.Yaml
