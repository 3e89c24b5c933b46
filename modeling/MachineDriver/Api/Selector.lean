import MachineDriver.Json.Codec

set_option autoImplicit false

/-!
# Label selectors of objects

Requirements on labels as they are written inside objects.
-/

namespace MachineDriver

open Json (Codec Field Record)

/-- A requirement on one key: an operator and the values that it compares with. -/
structure KeyRequirement where
  key : String
  operator : String
  values : Option (List String)
  deriving DecidableEq, Repr, Inhabited

/-- Requirements as open records. -/
def KeyRequirement.codec : Codec KeyRequirement :=
  Record.opened
    { fields :=
        .cons (.lenient "key" .text "")
        <| .cons (.lenient "operator" .text "")
        <| .cons (.optional "values" (.list .text)) .nil
      ofFields := fun (k, o, v, ()) => ⟨k, o, v⟩
      toFields := fun r => (r.key, r.operator, r.values, ()) }

/-- A selector of objects by their labels. -/
structure ObjectSelector where
  matchExpressions : Option (List KeyRequirement)
  matchLabels : Option (TextMap String)
  deriving DecidableEq, Repr, Inhabited

/-- Selectors as open records. -/
def ObjectSelector.codec : Codec ObjectSelector :=
  Record.opened
    { fields :=
        .cons (.optional "matchExpressions" (.list KeyRequirement.codec))
        <| .cons (.optional "matchLabels" (.map .text)) .nil
      ofFields := fun (e, l, ()) => ⟨e, l⟩
      toFields := fun s => (s.matchExpressions, s.matchLabels, ()) }

end MachineDriver
