import MachineDriver.IpAddress

set_option autoImplicit false

/-!
# Socket addresses

The address and the port that a server listens on, read from a text and written in its shortest
form.
-/

namespace MachineDriver

/-- An address and a port. An address of the sixth version has eight groups and may have a scope. -/
inductive SocketAddress where
  | v4 (address : Ip4) (port : UInt16)
  | v6 (groups : Ip6) (scope : UInt32) (port : UInt16)
  deriving DecidableEq, Repr

namespace SocketAddress

open IpAddress

/-! ## Reading -/

/-- Reads a port, which ends the text. -/
def readPort? (cs : List Char) : Option UInt16 :=
  match (readChar? ':' cs).bind (readNumber? 10 65536) with
  | some (n, []) => some (UInt16.ofNat n)
  | _ => none

/-- Reads the scope of an address, which need not be given. -/
def readScope? (cs : List Char) : Option (UInt32 × List Char) :=
  match readChar? '%' cs with
  | some rest => (readNumber? 10 4294967296 rest).map fun (n, rest) => (UInt32.ofNat n, rest)
  | none => some (0, cs)

/-- The socket address of a text. -/
def ofText? (s : String) : Option SocketAddress :=
  match readIp4? s.toList with
  | some (ip, rest) => (readPort? rest).map (.v4 ip)
  | none =>
    match (readChar? '[' s.toList).bind readIp6? with
    | none => none
    | some (groups, rest) =>
      match readScope? rest with
      | none => none
      | some (scope, rest) =>
        ((readChar? ']' rest).bind readPort?).map (.v6 groups scope)

/-! ## Writing -/

/-- A socket address as a text. -/
def text : SocketAddress → String
  | .v4 ip port => String.ofList (ip4Text ip ++ ':' :: Text.decimal port.toNat)
  | .v6 groups scope port =>
    let scopeText := if scope = 0 then [] else '%' :: Text.decimal scope.toNat
    String.ofList ('[' :: ip6Text groups.toList ++ scopeText ++ ']' :: ':' ::
      Text.decimal port.toNat)

end SocketAddress

end MachineDriver
