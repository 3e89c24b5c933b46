import MachineDriver.Json.Codec
import MachineDriver.Text.Blank
import MachineDriver.Text.Decimal

set_option autoImplicit false

/-!
# Times

A time is read from a date, a time of day and an offset, and written as UTC to the second. Reading
is relaxed: numbers need no padding, blanks may stand between the parts, the offset may lack its
colon, and a fraction is dropped.
-/

namespace MachineDriver

/-- A second of the UTC calendar, counted from the start of 1970; a leap second is told apart from
the second that it extends. -/
structure Time where
  second : Int
  leap : Bool
  deriving DecidableEq, Repr, Inhabited

namespace Time

open Text

/-! ## The calendar -/

/-- The days from 1970-01-01 to a day of the calendar. -/
def daysOfDate (year month day : Int) : Int :=
  let y := if month ≤ 2 then year - 1 else year
  let era := y.fdiv 400
  let yearOfEra := y - era * 400
  let shifted := if 2 < month then month - 3 else month + 9
  let dayOfYear := (153 * shifted + 2) / 5 + day - 1
  let dayOfEra := yearOfEra * 365 + yearOfEra / 4 - yearOfEra / 100 + dayOfYear
  era * 146097 + dayOfEra - 719468

/-- The year, month and day of a number of days from 1970-01-01. -/
def dateOfDays (days : Int) : Int × Int × Int :=
  let z := days + 719468
  let era := z.fdiv 146097
  let dayOfEra := z - era * 146097
  let yearOfEra :=
    (dayOfEra - dayOfEra / 1460 + dayOfEra / 36524 - dayOfEra / 146096) / 365
  let dayOfYear := dayOfEra - (365 * yearOfEra + yearOfEra / 4 - yearOfEra / 100)
  let shifted := (5 * dayOfYear + 2) / 153
  let day := dayOfYear - (153 * shifted + 2) / 5 + 1
  let month := if shifted < 10 then shifted + 3 else shifted - 9
  let year := yearOfEra + era * 400
  (if month ≤ 2 then year + 1 else year, month, day)

/-- Whether a year has a 29th of February. -/
def isLeapYear (year : Int) : Bool :=
  year % 4 = 0 && (year % 100 != 0 || year % 400 = 0)

/-- The number of days of a month. -/
def daysOfMonth (year month : Int) : Int :=
  if month = 2 then (if isLeapYear year then 29 else 28)
  else if month = 4 ∨ month = 6 ∨ month = 9 ∨ month = 11 then 30
  else 31

/-! ## Writing -/

/-- A number with at least a width of digits. -/
def padded (width : Nat) (n : Nat) : List Char :=
  let ds := decimal n
  List.replicate (width - ds.length) '0' ++ ds

/-- The written form of a time. -/
def write (t : Time) : String :=
  let days := t.second.fdiv 86400
  let rest := (t.second - days * 86400).toNat
  let (year, month, day) := dateOfDays days
  let yearText :=
    if 0 ≤ year ∧ year ≤ 9999 then padded 4 year.toNat
    else (if year < 0 then '-' else '+') :: padded 4 year.natAbs
  let second := rest % 60 + (if t.leap then 1 else 0)
  String.ofList <|
    yearText ++ '-' :: padded 2 month.toNat ++ '-' :: padded 2 day.toNat ++ 'T'
      :: padded 2 (rest / 3600) ++ ':' :: padded 2 (rest / 60 % 60) ++ ':'
      :: padded 2 second ++ ['Z']

/-! ## Reading -/

/-- A number of at most `width` digits at the front of a text, blanks before it passed over. -/
def takeNumber? (width : Nat) (cs : List Char) : Option (Nat × List Char) :=
  let cs := trimStartChars cs
  let ds := (cs.take width).takeWhile isDigit
  match readNumeral? 10 ds with
  | some n => some (n, cs.drop ds.length)
  | none => none

/-- What follows a character at the front of a text, blanks before it passed over. -/
def takeChar? (c : Char) (cs : List Char) : Option (List Char) :=
  match trimStartChars cs with
  | d :: rest => if d = c then some rest else none
  | [] => none

/-- The year at the front of a text: four digits at most, or any number with a sign. -/
def takeYear? (cs : List Char) : Option (Int × List Char) :=
  match trimStartChars cs with
  | '-' :: rest =>
    if rest.head?.any isDigit then
      (takeNumber? rest.length rest).map fun (n, r) => (-(n : Int), r)
    else none
  | '+' :: rest =>
    if rest.head?.any isDigit then
      (takeNumber? rest.length rest).map fun (n, r) => ((n : Int), r)
    else none
  | cs => (takeNumber? 4 cs).map fun (n, r) => ((n : Int), r)

/-- A text without the fraction of a second at its front; a point without digits is no fraction. -/
def dropFraction? (cs : List Char) : Option (List Char) :=
  match cs with
  | '.' :: rest => if rest.head?.any isDigit then some (rest.dropWhile isDigit) else none
  | cs => some cs

/-- The seconds of an offset, which is all of a text. -/
def readOffset? (cs : List Char) : Option Int :=
  match trimStartChars cs with
  | ['Z'] => some 0
  | ['z'] => some 0
  | ['U', 'T', 'C'] => some 0
  | ['u', 't', 'c'] => some 0
  | sign :: rest =>
    if sign = '+' ∨ sign = '-' ∨ sign = '\u2212' then
      match rest with
      | a :: b :: rest =>
        let rest := rest.dropWhile fun c => c = ':' || isBlank c
        match rest with
        | [c, d] =>
          match readNumeral? 10 [a, b], readBelow? 10 60 [c, d] with
          | some h, some m =>
            let s : Int := h * 3600 + m * 60
            if s < 86400 then some (if sign = '+' then s else -s) else none
          | _, _ => none
        | _ => none
      | _ => none
    else none
  | [] => none

/-- The time of a text. -/
def read? (s : String) : Option Time := do
  let (year, cs) ← takeYear? s.toList
  let cs ← takeChar? '-' cs
  let (month, cs) ← takeNumber? 2 cs
  let cs ← takeChar? '-' cs
  let (day, cs) ← takeNumber? 2 cs
  let cs ←
    match cs with
    | c :: rest => if c = 'T' ∨ c = 't' ∨ c = ' ' then some rest else none
    | [] => none
  let (hour, cs) ← takeNumber? 2 cs
  let cs ← takeChar? ':' cs
  let (minute, cs) ← takeNumber? 2 cs
  let cs ← takeChar? ':' cs
  let (second, cs) ← takeNumber? 2 cs
  let cs ← dropFraction? cs
  let offset ← readOffset? cs
  if 1 ≤ month ∧ month ≤ 12 ∧ 1 ≤ day ∧ (day : Int) ≤ daysOfMonth year month ∧ hour ≤ 23
      ∧ minute ≤ 59 ∧ second ≤ 60 ∧ -262143 ≤ year ∧ year ≤ 262142 then
    let leap := second = 60
    let within : Int := hour * 3600 + minute * 60 + (if leap then 59 else second)
    some ⟨daysOfDate year month day * 86400 + within - offset, leap⟩
  else none

/-- Times as texts. -/
def codec : Json.Codec Time where
  read
    | .string s =>
      match read? s with
      | some t => .ok t
      | none => .error .mismatch
    | j => .error (Json.unexpected j)
  write t := .string t.write

end Time

end MachineDriver
