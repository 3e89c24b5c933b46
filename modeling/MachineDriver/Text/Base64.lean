set_option autoImplicit false

/-!
# Base64

The standard alphabet with padding. Reading is strict: the length is a multiple of four, padding
stands only at the end, and the bits that padding leaves unused are zero, so each byte string has
one written form.
-/

namespace MachineDriver.Text.Base64

/-- The character of a six-bit value. -/
def digit (n : Nat) : Char :=
  if n < 26 then Char.ofNat (65 + n)
  else if n < 52 then Char.ofNat (71 + n)
  else if n < 62 then Char.ofNat (n - 4)
  else if n = 62 then '+'
  else '/'

/-- The six-bit value of a character of the alphabet. -/
def value? (c : Char) : Option Nat :=
  let n := c.toNat
  if 65 ≤ n ∧ n ≤ 90 then some (n - 65)
  else if 97 ≤ n ∧ n ≤ 122 then some (n - 71)
  else if 48 ≤ n ∧ n ≤ 57 then some (n + 4)
  else if c = '+' then some 62
  else if c = '/' then some 63
  else none

/-- The written form of a byte string. -/
def encodeChars : List UInt8 → List Char
  | [] => []
  | [a] =>
    let n := a.toNat
    [digit (n / 4), digit (n % 4 * 16), '=', '=']
  | [a, b] =>
    let n := a.toNat * 256 + b.toNat
    [digit (n / 1024), digit (n / 16 % 64), digit (n % 16 * 4), '=']
  | a :: b :: c :: rest =>
    let n := (a.toNat * 256 + b.toNat) * 256 + c.toNat
    digit (n / 262144) :: digit (n / 4096 % 64) :: digit (n / 64 % 64) :: digit (n % 64)
      :: encodeChars rest

/-- The byte string of a written form. -/
def decodeChars : List Char → Option (List UInt8)
  | [] => some []
  | [a, b, '=', '='] =>
    match value? a, value? b with
    | some a, some b => if b % 16 = 0 then some [UInt8.ofNat (a * 4 + b / 16)] else none
    | _, _ => none
  | [a, b, c, '='] =>
    match value? a, value? b, value? c with
    | some a, some b, some c =>
      if c % 4 = 0 then
        some [UInt8.ofNat (a * 4 + b / 16), UInt8.ofNat (b % 16 * 16 + c / 4)]
      else none
    | _, _, _ => none
  | a :: b :: c :: d :: rest =>
    match value? a, value? b, value? c, value? d, decodeChars rest with
    | some a, some b, some c, some d, some bytes =>
      some (UInt8.ofNat (a * 4 + b / 16) :: UInt8.ofNat (b % 16 * 16 + c / 4)
        :: UInt8.ofNat (c % 4 * 64 + d) :: bytes)
    | _, _, _, _, _ => none
  | _ => none

/-- The written form of a byte string, as a text. -/
def encode (bytes : List UInt8) : String :=
  String.ofList (encodeChars bytes)

/-- The byte string that a text writes. -/
def decode? (s : String) : Option (List UInt8) :=
  decodeChars s.toList

end MachineDriver.Text.Base64
