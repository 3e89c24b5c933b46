set_option autoImplicit false

/-!
# Tokens

The parts of a YAML text: its words, the marks between them, and the limits of the collections that
indentation or brackets make.
-/

namespace MachineDriver.Yaml

/-- A part of a YAML text. -/
inductive Token where
  /-- The version of YAML that a document is written in. -/
  | version (major minor : Nat)
  /-- A handle that stands for the first bytes of tags. -/
  | handle (name : String) (stem : List UInt8)
  | documentStart
  | documentEnd
  | blockSequenceStart
  | blockMappingStart
  | blockEnd
  | flowSequenceStart
  | flowSequenceEnd
  | flowMappingStart
  | flowMappingEnd
  | blockEntry
  | flowEntry
  | key
  | value
  | alias (name : String)
  | anchor (name : String)
  /-- A tag by its handle, which may be empty, and its other bytes. -/
  | tag (handle : String) (suffix : List UInt8)
  /-- A scalar; it is plain if it is neither quoted nor a block. -/
  | scalar (plain : Bool) (text : List Char)
  deriving DecidableEq, Repr, Inhabited

end MachineDriver.Yaml
