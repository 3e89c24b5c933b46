import MachineDriver.Machine.Credentials
import MachineDriver.Machine.Spec

set_option autoImplicit false

/-!
# Messages

The documents that requests carry and that responses give back.
-/

namespace MachineDriver

open Json (Codec Field Record)

/-- What a machine is created from. -/
structure CreateMessage where
  machineName : String
  spec : MachineSpec
  secret : Secret
  deriving Repr, Inhabited

/-- How a machine is asked for. -/
def CreateMessage.codec : Codec CreateMessage :=
  Record.strict
    { fields :=
        .cons (.required "machineName" Codec.text) <|
        .cons (.required "providerSpec" MachineSpec.codec) <|
        .cons (.required "secret" Secret.codec) .nil
      ofFields := fun (machineName, spec, secret, ()) => ⟨machineName, spec, secret⟩
      toFields := fun m => (m.machineName, m.spec, m.secret, ()) } []

/-- What an operation on one machine needs besides its name. -/
structure MachineMessage where
  secret : Secret
  deriving Repr, Inhabited

/-- How an operation on one machine is asked for. -/
def MachineMessage.codec : Codec MachineMessage :=
  Record.strict
    { fields := .cons (.required "secret" Secret.codec) .nil
      ofFields := fun (secret, ()) => ⟨secret⟩
      toFields := fun m => (m.secret, ()) } []

/-- Which machines are listed. -/
structure ListMessage where
  spec : MachineSpec
  secret : Secret
  deriving Repr, Inhabited

/-- How machines are asked for. -/
def ListMessage.codec : Codec ListMessage :=
  Record.strict
    { fields :=
        .cons (.defaulted "providerSpec" MachineSpec.codec {}) <|
        .cons (.required "secret" Secret.codec) .nil
      ofFields := fun (spec, secret, ()) => ⟨spec, secret⟩
      toFields := fun m => (m.spec, m.secret, ()) } []

/-- The document that gives an identifier. -/
def identifierMessage (id : String) : Json :=
  .object [("providerId", .string id)]

/-- The document that gives machines by their identifiers. -/
def machinesMessage (machines : TextMap String) : Json :=
  .object [("machines", (Codec.map Codec.text).write machines)]

end MachineDriver
