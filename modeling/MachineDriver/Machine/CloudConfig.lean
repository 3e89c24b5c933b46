import MachineDriver.Text.Blank
import MachineDriver.Yaml.Document
import MachineDriver.Yaml.Writer

set_option autoImplicit false

/-!
# Cloud configurations

The user data of a machine when it is a YAML mapping behind a header line, and how keys for logging
in are added to it. All other entries keep their values and their order.
-/

namespace MachineDriver.CloudConfig

/-- The first line of a cloud configuration. -/
def header : String := "#cloud-config"

/-- The entry that lists the keys for logging in. -/
def keysEntry : String := "ssh_authorized_keys"

/-- Why user data cannot take keys. -/
inductive Error where
  /-- The user data does not begin with the header. -/
  | noHeader
  /-- The user data is not YAML. -/
  | invalid
  /-- The user data is YAML but no mapping. -/
  | noMapping
  /-- The entry for keys holds something other than a list. -/
  | noList
  /-- The configuration cannot be written as YAML. -/
  | unwritable
  deriving DecidableEq, Repr, Inhabited

/-- How an error is reported. -/
def Error.message : Error → String
  | .noHeader => "user data does not start with " ++ header
  | .invalid => "invalid cloud-config"
  | .noMapping => "cloud-config is not a mapping"
  | .noList => keysEntry ++ " is not a list"
  | .unwritable => Yaml.unwritable

/-- Whether a text begins with the header, blanks before it apart. -/
def startsWithHeader (userData : String) : Bool :=
  header.toList.isPrefixOf (Text.trimStartChars userData.toList)

/-- The entries of user data; blank user data has none. -/
def entries (userData : String) : Except Error (List (Yaml × Yaml)) :=
  if Text.isBlankText userData then .ok []
  else if !startsWithHeader userData then .error .noHeader
  else
    match Yaml.ofText? userData with
    | some (.mapping es) => .ok es
    | some .null => .ok []
    | some _ => .error .noMapping
    | none => .error .invalid

/-- Entries with keys added at the end of their list, without the blanks around each key. -/
def extend (es : List (Yaml × Yaml)) (keys : List String) : Except Error (List (Yaml × Yaml)) :=
  let added := keys.map fun k => Yaml.text (Text.trim k)
  match Yaml.find? keysEntry es with
  | none => .ok (Yaml.put keysEntry (.sequence added) es)
  | some (.sequence old) => .ok (Yaml.put keysEntry (.sequence (old ++ added)) es)
  | some v => if v.isNull then .ok (Yaml.put keysEntry (.sequence added) es) else .error .noList

/-- Entries as user data. -/
def render (es : List (Yaml × Yaml)) : Except Error String :=
  match (Yaml.mapping es).write with
  | .ok body => .ok (header ++ "\n" ++ body)
  | .error _ => .error .unwritable

theorem render_eq (es : List (Yaml × Yaml)) :
    render es = if (Yaml.mapping es).isWritable false
      then .ok (header ++ "\n" ++ (Yaml.mapping es).toText) else .error .unwritable := by
  unfold render Yaml.write
  cases (Yaml.mapping es).isWritable false <;> rfl

/-- User data with keys added. -/
def addKeys (userData : String) (keys : List String) : Except Error String :=
  match entries userData with
  | .error e => .error e
  | .ok es =>
    match extend es keys with
    | .error e => .error e
    | .ok es => render es

end MachineDriver.CloudConfig
