import MachineDriver.TextMap

set_option autoImplicit false

/-!
# Label selectors

The text by which a cluster is asked for the objects that carry certain labels.
-/

namespace MachineDriver.LabelSelector

/-- One requirement: a label has a value. -/
def requirement (label : String × String) : String :=
  label.1 ++ "=" ++ label.2

/-- The selector of the objects that carry all labels of a map, if there are any. -/
def ofLabels? (labels : TextMap String) : Option String :=
  if labels.isEmpty then none
  else some (",".intercalate (labels.entries.map requirement))

end MachineDriver.LabelSelector
