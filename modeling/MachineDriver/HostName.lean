import MachineDriver.IpAddress

set_option autoImplicit false

/-!
# Names of hosts

Labels with points between them, and perhaps a point at the end. A last label of digits alone would
be taken for a number.
-/

namespace MachineDriver.HostName

/-- The characters of labels. -/
def isLabelChar (c : Char) : Bool :=
  c.isAlphanum || c = '_' || c = '-'

/-- Whether a text is a label. -/
def isLabel (cs : List Char) : Bool :=
  !cs.isEmpty && cs.length ≤ 63 && cs.all isLabelChar
    && cs.head? != some '-' && cs.getLast? != some '-'

/-- Whether labels make a name; an empty one may stand for a point at the end. -/
def areLabels : List (List Char) → Bool
  | [] => false
  | [label] => isLabel label && !label.all Text.isDigit
  | [label, []] => isLabel label
  | label :: rest => isLabel label && areLabels rest

/-- The parts of a text between points. -/
def parts : List Char → List (List Char)
  | [] => [[]]
  | c :: cs =>
    match parts cs with
    | [] => [[c]]
    | s :: ss => if c = '.' then [] :: s :: ss else (c :: s) :: ss

/-- Whether a text is the name of a host or an address. -/
def isServerName (s : String) : Bool :=
  (s.toList.length ≤ 253 && areLabels (parts s.toList)) || IpAddress.isAddress s.toList

end MachineDriver.HostName
