set_option autoImplicit false

/-!
# Identifiers of resources

Where something is found: a scheme and an authority, which may be missing, and a target, which is a
path and perhaps a query. A fragment is dropped. Paths and queries are kept as they are written;
they may hold characters outside ASCII.
-/

namespace MachineDriver

/-- Where something is found. The authority is empty when there is none. -/
structure Uri where
  scheme : Option (List Char)
  authority : List Char
  target : List Char
  deriving DecidableEq, Repr, Inhabited

namespace Uri

/-- Why a text is no identifier. -/
inductive Fault where
  | empty
  | tooLong
  | badCharacter
  | badAuthority
  | badFormat
  | longScheme
  deriving DecidableEq, Repr, Inhabited

/-- How a fault is reported. -/
def Fault.message : Fault → String
  | .empty => "empty string"
  | .tooLong => "uri too long"
  | .badCharacter => "invalid uri character"
  | .badAuthority => "invalid authority"
  | .badFormat => "invalid format"
  | .longScheme => "scheme too long"

/-! ## Paths and queries -/

/-- The characters of a path. Besides those that may stand unescaped, quotes and braces are let
through. -/
def isPathChar (c : Char) : Bool :=
  0x20 < c.toNat && !"#<>?\x60".toList.contains c

/-- The characters of a query. -/
def isQueryChar (c : Char) : Bool :=
  0x20 < c.toNat && !"\"#<>".toList.contains c

/-- The query at the front of a text, up to a fragment. -/
def readQuery (cs : List Char) : Except Fault (List Char) :=
  match cs.dropWhile isQueryChar with
  | [] => .ok cs
  | '#' :: _ => .ok (cs.takeWhile isQueryChar)
  | _ => .error .badCharacter

/-- The path and the query of a text, up to a fragment. -/
def readTarget (cs : List Char) : Except Fault (List Char) :=
  match cs.dropWhile isPathChar with
  | [] => .ok cs
  | '#' :: _ => .ok (cs.takeWhile isPathChar)
  | '?' :: rest =>
    match readQuery rest with
    | .ok query => .ok (cs.takeWhile isPathChar ++ '?' :: query)
    | .error e => .error e
  | _ => .error .badCharacter

/-! ## Authorities -/

/-- What has been seen of an authority. Colons and percent signs count from the last at sign or
closing bracket on. -/
structure Seen where
  colons : Nat := 0
  opened : Bool := false
  closed : Bool := false
  percent : Bool := false
  endsInAt : Bool := false
  deriving DecidableEq, Repr, Inhabited

/-- The plain characters of an authority. -/
def isAuthorityChar (c : Char) : Bool :=
  c.isAlphanum || "!$&\x27()*+,-.;=_~".toList.contains c

/-- What has been seen after one more character. -/
def Seen.next (s : Seen) (c : Char) : Except Fault Seen :=
  let s := { s with endsInAt := false }
  if c = ':' then
    if 8 ≤ s.colons then .error .badAuthority else .ok { s with colons := s.colons + 1 }
  else if c = '[' then
    if s.percent || s.opened then .error .badAuthority else .ok { s with opened := true }
  else if c = ']' then
    if !s.opened || s.closed then .error .badAuthority
    else .ok { s with closed := true, colons := 0, percent := false }
  else if c = '@' then .ok { s with endsInAt := true, colons := 0, percent := false }
  else if c = '%' then .ok { s with percent := true }
  else if isAuthorityChar c then .ok s
  else .error .badCharacter

/-- Whether nothing is wrong with an authority as a whole. -/
def Seen.isSound (s : Seen) : Bool :=
  s.opened == s.closed && s.colons ≤ 1 && !s.endsInAt && !s.percent

/-- The authority at the front of a text and the rest of the text. -/
def readAuthority (cs : List Char) : Except Fault (List Char × List Char) :=
  let isInside (c : Char) : Bool := !"/?#".toList.contains c
  match (cs.takeWhile isInside).foldlM Seen.next {} with
  | .error e => .error e
  | .ok seen =>
    if seen.isSound then .ok (cs.takeWhile isInside, cs.dropWhile isInside)
    else .error .badAuthority

/-! ## Reading and writing -/

/-- A letter without its case. -/
def lower (c : Char) : Char :=
  if c.isUpper then Char.ofNat (c.toNat + 32) else c

/-- The scheme at the front of a text, if there is one, and what comes after it. The two schemes of
the web are written without case. -/
def readScheme (cs : List Char) : Except Fault (Option (List Char) × List Char) :=
  let isInside (c : Char) : Bool := c.isAlphanum || "+-.~".toList.contains c
  let scheme := cs.takeWhile isInside
  match cs.dropWhile isInside with
  | ':' :: '/' :: '/' :: rest =>
    -- Only these two schemes are common enough to be compared without case.
    let plain := scheme.map lower
    if plain = "http".toList ∨ plain = "https".toList then .ok (some plain, rest)
    else if 64 < scheme.length then .error .longScheme
    else .ok (some scheme, rest)
  | _ => .ok (none, cs)

/-- The identifier of a text that does not begin with a slash. -/
def readFull (cs : List Char) : Except Fault Uri := do
  let (scheme, rest) ← readScheme cs
  let (authority, rest) ← readAuthority rest
  match scheme with
  | none => if rest = [] then return ⟨none, authority, []⟩ else throw .badFormat
  | some _ =>
    if authority = [] then throw .badFormat
    else return ⟨scheme, authority, ← readTarget rest⟩

/-- The identifier of a text. -/
def ofText (s : String) : Except Fault Uri :=
  if 65534 < s.utf8ByteSize then .error .tooLong
  else
    match s.toList with
    | [] => .error .empty
    | '/' :: rest => (readTarget ('/' :: rest)).map fun target => ⟨none, [], target⟩
    | ['*'] => .ok ⟨none, [], ['*']⟩
    | [c] =>
      if "?#".toList.contains c then .error .badCharacter else readFull [c]
    | cs => readFull cs

/-- The path of an identifier. With a scheme there is always one. -/
def path (u : Uri) : List Char :=
  match u.target.takeWhile (· ≠ '?') with
  | [] => if u.scheme.isSome then ['/'] else []
  | path => path

/-- The query of an identifier, with its question mark. -/
def query (u : Uri) : List Char :=
  u.target.dropWhile (· ≠ '?')

/-- An identifier as a text. -/
def text (u : Uri) : String :=
  let scheme := match u.scheme with
    | some s => s ++ "://".toList
    | none => []
  String.ofList (scheme ++ u.authority ++ u.path ++ u.query)

end Uri

end MachineDriver
