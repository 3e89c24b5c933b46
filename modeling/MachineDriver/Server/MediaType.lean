import MachineDriver.Server.Http

set_option autoImplicit false

/-!
# Media types

The kind of a content as a header tells it: a type and a subtype, perhaps with a suffix after a plus
sign, and parameters, whose values do not matter here but must be written well.
-/

namespace MachineDriver.MediaType

/-- The characters of names and of values without quotes. -/
def isTokenChar (c : Char) : Bool :=
  c.isAlphanum || "!#$%&\x27*+-.^_\x60|~".toList.contains c

/-- The characters of values between quotes. -/
def isQuotedChar (c : Char) : Bool :=
  31 < c.toNat && c.toNat ≠ 127

/-- What comes after a value between quotes: nothing, or a semicolon and the next parameter, with
blanks before. -/
def afterQuoted? : List Char → Option (List Char)
  | [] => some []
  | ';' :: rest => some rest
  | ' ' :: rest => afterQuoted? rest
  | _ => none

/-- What comes after a quote that is not the first character of a value. -/
def afterQuote? (cs : List Char) : Option (List Char) :=
  match cs.dropWhile fun c => isQuotedChar c && c ≠ '"' with
  | '"' :: rest => afterQuoted? rest
  | _ => none

/-- What comes after a value, which is a token or stands between quotes. A quote right after the
first belongs to the value. -/
def afterValue? : List Char → Option (List Char)
  | [] => some []
  | '"' :: c :: rest => if isQuotedChar c then afterQuote? rest else none
  | c :: rest =>
    if isTokenChar c then
      match rest.dropWhile isTokenChar with
      | [] => some []
      | ';' :: rest => some rest
      | _ => none
    else none

/-- What comes after a parameter: blanks, a name, an equals sign and a value. -/
def afterParameter? (cs : List Char) : Option (List Char) :=
  match cs.dropWhile (· = ' ') with
  | [] => some []
  | c :: rest =>
    if isTokenChar c then
      match rest.dropWhile isTokenChar with
      | '=' :: rest => afterValue? rest
      | _ => none
    else none

/-- Whether parameters are written well; each takes at least one character. -/
def areParameters : Nat → List Char → Bool
  | _, [] => true
  | 0, _ :: _ => false
  | fuel + 1, cs =>
    match afterParameter? cs with
    | some rest => areParameters fuel rest
    | none => false

/-- The part of a subtype before its last plus sign and the part after it. A plus sign that comes
first belongs to the subtype. -/
def splitSuffix (subtype : List Char) : List Char × Option (List Char) :=
  match subtype with
  | [] => ([], none)
  | first :: rest =>
    let suffix := (rest.reverse.takeWhile (· ≠ '+')).reverse
    if rest.contains '+' then (first :: rest.take (rest.length - suffix.length - 1), some suffix)
    else (subtype, none)

/-- Whether a header tells that a content is JSON: its type is `application`, and its subtype or its
suffix is `json`. -/
def isJson (header : List Char) : Bool :=
  let type := header.takeWhile isTokenChar
  match header.dropWhile isTokenChar with
  | '/' :: rest =>
    let subtype := rest.takeWhile isTokenChar
    let parameters := match rest.dropWhile isTokenChar with
      | [] => true
      | ';' :: rest => areParameters rest.length rest
      | _ => false
    let (name, suffix) := splitSuffix (subtype.map Request.lowerLetter)
    !subtype.isEmpty && parameters && type.map Request.lowerLetter == "application".toList
      && (name == "json".toList || suffix == some "json".toList)
  | _ => false

end MachineDriver.MediaType
