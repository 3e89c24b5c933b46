import MachineDriver.Text.Decimal

set_option autoImplicit false

/-!
# Addresses

Addresses of the two versions of the internet protocol, read from a text and written in their
shortest form.
-/

namespace MachineDriver

/-- An address of the fourth version of the protocol. -/
structure Ip4 where
  a : UInt8
  b : UInt8
  c : UInt8
  d : UInt8
  deriving DecidableEq, Repr, Inhabited

/-- An address of the sixth version of the protocol: eight groups. -/
abbrev Ip6 := Vector UInt16 8

namespace IpAddress

/-! ## Reading -/

/-- Reads a number below a bound, of all the digits that come next. -/
def readNumber? (base bound : Nat) (cs : List Char) : Option (Nat × List Char) :=
  let isDigit (c : Char) : Bool := (Text.digitValue? base c).isSome
  (Text.readBelow? base bound (cs.takeWhile isDigit)).map fun n => (n, cs.dropWhile isDigit)

/-- Reads a decimal number of at most three digits, without zeros in front. -/
def readOctet? (cs : List Char) : Option (UInt8 × List Char) :=
  let ds := cs.takeWhile Text.isDigit
  if ds.length ≤ 3 && !(ds.length > 1 && ds.head? = some '0') then
    (readNumber? 10 256 cs).map fun (n, rest) => (UInt8.ofNat n, rest)
  else none

/-- Reads a hexadecimal number of at most four digits. -/
def readGroup? (cs : List Char) : Option (UInt16 × List Char) :=
  if (cs.takeWhile fun c => (Text.digitValue? 16 c).isSome).length ≤ 4 then
    (readNumber? 16 65536 cs).map fun (n, rest) => (UInt16.ofNat n, rest)
  else none

/-- Reads a fixed character. -/
def readChar? (c : Char) : List Char → Option (List Char)
  | [] => none
  | d :: rest => if c = d then some rest else none

/-- Reads the character that comes before a part, unless the part is the first. -/
def readSeparator? (c : Char) (first : Bool) (cs : List Char) : Option (List Char) :=
  if first then some cs else readChar? c cs

/-- Reads an octet after a point. -/
def readNextOctet? (cs : List Char) : Option (UInt8 × List Char) :=
  (readChar? '.' cs).bind readOctet?

/-- Reads an address of the fourth version. -/
def readIp4? (cs : List Char) : Option (Ip4 × List Char) :=
  match readOctet? cs with
  | none => none
  | some (a, cs) =>
    match readNextOctet? cs with
    | none => none
    | some (b, cs) =>
      match readNextOctet? cs with
      | none => none
      | some (c, cs) => (readNextOctet? cs).map fun (d, cs) => (⟨a, b, c, d⟩, cs)

/-- The two groups that an address of the fourth version stands for. -/
def groupsOf (ip : Ip4) : List UInt16 :=
  [ip.a.toUInt16 * 256 + ip.b.toUInt16, ip.c.toUInt16 * 256 + ip.d.toUInt16]

/-- Reads as many groups as come next, up to a limit; the last two may be an address of the fourth
version, which the flag tells. -/
def readGroups : Nat → Bool → List Char → List UInt16 × Bool × List Char
  | 0, _, cs => ([], false, cs)
  | limit + 1, first, cs =>
    let embedded := if limit = 0 then none else (readSeparator? ':' first cs).bind readIp4?
    match embedded with
    | some (ip, rest) => (groupsOf ip, true, rest)
    | none =>
      match (readSeparator? ':' first cs).bind readGroup? with
      | none => ([], false, cs)
      | some (g, rest) =>
        let (gs, embedded, rest) := readGroups limit false rest
        (g :: gs, embedded, rest)

/-- Eight groups of a list, if it has so many. -/
def eight? (gs : List UInt16) : Option Ip6 :=
  if h : gs.toArray.size = 8 then some ⟨gs.toArray, h⟩ else none

/-- Reads an address of the sixth version. Two colons stand for at least one group of zeros. -/
def readIp6? (cs : List Char) : Option (Ip6 × List Char) :=
  let (front, embedded, rest) := readGroups 8 true cs
  if front.length = 8 then (eight? front).map fun v => (v, rest)
  else if embedded then none
  else
    match (readChar? ':' rest).bind (readChar? ':') with
    | none => none
    | some rest =>
      let (back, _, rest) := readGroups (7 - front.length) true rest
      let zeros := List.replicate (8 - front.length - back.length) 0
      (eight? (front ++ zeros ++ back)).map fun v => (v, rest)

/-- Whether a text is an address of either version. -/
def isAddress (cs : List Char) : Bool :=
  (readIp4? cs).any (fun r => r.2.isEmpty) || (readIp6? cs).any (fun r => r.2.isEmpty)

/-! ## Writing -/

/-- An address of the fourth version as a text. -/
def ip4Text (ip : Ip4) : List Char :=
  let part (n : UInt8) : List Char := Text.decimal n.toNat
  part ip.a ++ '.' :: part ip.b ++ '.' :: part ip.c ++ '.' :: part ip.d

/-- Groups with colons between them. -/
def groupsText : List UInt16 → List Char
  | [] => []
  | [g] => Text.hexadecimal g.toNat
  | g :: gs => Text.hexadecimal g.toNat ++ ':' :: groupsText gs

/-- The place and the length of the longest run of zeros, the first of several. `place` is the place
of the first group, and `run` the number of zeros right before it. -/
def longestRun (place run : Nat) (best : Nat × Nat) : List UInt16 → Nat × Nat
  | [] => best
  | g :: gs =>
    if g = 0 then
      let run := run + 1
      longestRun (place + 1) run (if best.2 < run then (place + 1 - run, run) else best) gs
    else longestRun (place + 1) 0 best gs

/-- An address of the sixth version as a text. The longest run of several zeros is left out, and an
address that stands for one of the fourth version shows it. -/
def ip6Text (groups : List UInt16) : List Char :=
  match groups with
  | [0, 0, 0, 0, 0, 0xffff, g, h] =>
    "::ffff:".toList ++
      ip4Text ⟨(g / 256).toUInt8, g.toUInt8, (h / 256).toUInt8, h.toUInt8⟩
  | groups =>
    let (place, run) := longestRun 0 0 (0, 0) groups
    if 1 < run then
      groupsText (groups.take place) ++ "::".toList ++ groupsText (groups.drop (place + run))
    else groupsText groups

end IpAddress

end MachineDriver
