import MachineDriver.Text.Decimal
import MachineDriver.Text.Utf8

set_option autoImplicit false

/-!
# Percent-encoding

A percent sign and two hexadecimal digits stand for a byte. Decoding leaves a percent sign without
two digits as it is. Encoding writes every byte outside a set of characters that may stand as
themselves.
-/

namespace MachineDriver.Text.Percent

/-- The bytes of a percent-encoded byte string, decoded once. -/
def decodeBytes : List UInt8 → List UInt8
  | [] => []
  | p :: a :: b :: rest =>
    if p = 0x25 then
      match digitValue? 16 (Char.ofNat a.toNat), digitValue? 16 (Char.ofNat b.toNat) with
      | some x, some y => UInt8.ofNat (x * 16 + y) :: decodeBytes rest
      | _, _ => p :: decodeBytes (a :: b :: rest)
    else p :: decodeBytes (a :: b :: rest)
  | a :: rest => a :: decodeBytes rest
  termination_by bytes => bytes.length

/-- The text of a percent-encoded text, if the decoded bytes are UTF-8. -/
def decode (s : String) : Except Utf8.Fault String :=
  Utf8.decode (decodeBytes (Utf8.encode s))

/-- The written form of one byte. -/
def encodeByte (keep : Char → Bool) (byte : UInt8) : List Char :=
  let n := byte.toNat
  if n < 0x80 && keep (Char.ofNat n) then [Char.ofNat n]
  else ['%', upperHexDigit (n / 16), upperHexDigit (n % 16)]

/-- A text with every byte written as itself where `keep` allows it, else percent-encoded. -/
def encode (keep : Char → Bool) (s : String) : String :=
  String.ofList ((Utf8.encode s).flatMap (encodeByte keep))

/-- The ASCII letters and digits. -/
def isAlphanumeric (c : Char) : Bool :=
  let n := c.toNat
  (48 ≤ n && n ≤ 57) || (65 ≤ n && n ≤ 90) || (97 ≤ n && n ≤ 122)

/-- The form-encoded value of a query: letters, digits and `*-._` stand for themselves and a blank
becomes a plus sign. -/
def encodeForm (s : String) : String :=
  String.ofList <| (Utf8.encode s).flatMap fun byte =>
    if byte = 0x20 then ['+']
    else encodeByte (fun c => isAlphanumeric c || c = '*' || c = '-' || c = '.' || c = '_') byte

end MachineDriver.Text.Percent
