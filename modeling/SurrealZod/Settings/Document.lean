import SurrealZod.Error
import SurrealZod.Json.Form
import SurrealZod.Settings.Basic
import SurrealZod.Yaml.PlainValue
import SurrealZod.Yaml.Reader

/-!
# Settings files

A settings file is JSON, or YAML if its extension says so. It names settings by their keys, each at most once and with a
value of its kind, and passes over keys that it does not know; a JSON file can list the settings in their order instead.
In YAML any scalar is a text, but only a plain one is a truth value.
-/

namespace SurrealZod

structure SettingValue where
  text : Option Text := none
  flag : Option Bool := none
  deriving DecidableEq

inductive SettingsDocument where
  | named (entries : List (Text × SettingValue))
  | listed (values : List SettingValue)
  deriving DecidableEq

namespace SettingsDocument

/-! ### Formats -/

def jsonValue : JsonForm → SettingValue
  | .string parts => { text := StringPart.decode? parts }
  | .boolean value => { flag := some value }
  | _ => {}

/-- The document of a JSON text. Values are not decoded before they are asked for. -/
def ofJson? (text : Text) : Option SettingsDocument :=
  match JsonForm.ofText? text with
  | some (.object members) =>
    (members.mapM fun (key, form) => (StringPart.decode? key).map (·, jsonValue form)).map .named
  | some (.array items) => some (.listed (items.map jsonValue))
  | _ => none

def yamlValue : YamlNode → SettingValue
  | .scalar plain text => { text := some text, flag := if plain then PlainValue.flag? text else none }
  | _ => {}

/-- The text of a key in YAML, which is a scalar. -/
def yamlKey? : YamlNode → Option Text
  | .scalar _ text => some text
  | _ => none

/-- The document of a YAML text. One without content names nothing. -/
def ofYaml? (text : Text) : Option SettingsDocument :=
  match YamlNode.ofText? text with
  | some (.scalar true []) => some (.named [])
  | some (.mapping entries) =>
    (entries.mapM fun (key, node) => (yamlKey? key).map (·, yamlValue node)).map .named
  | _ => none

/-! ### Settings -/

/-- The value of a key, if the key is there; `none` if it is there more than once. -/
def single? (key : Text) (entries : List (Text × SettingValue)) : Option (Option SettingValue) :=
  match entries.filter (·.1 = key) with
  | [] => some none
  | [(_, value)] => some (some value)
  | _ => none

/-- A setting by its value, if the value is of the right kind, or by its default, if there is no value. -/
def setting? {α : Type} (take : SettingValue → Option α) (default : α) : Option SettingValue → Option α
  | none => some default
  | some value => take value

def takePath (value : SettingValue) : Option Path := value.text.map ({ text := · })

def settings? (schemaFile outputFolder generateClient lib : Option SettingValue) : Option Settings := do
  let default : Settings := {}
  return {
    schemaFile := ← setting? takePath default.schemaFile schemaFile
    outputFolder := ← setting? takePath default.outputFolder outputFolder
    generateClient := ← setting? (·.flag) default.generateClient generateClient
    lib := ← setting? (·.text) default.lib lib }

def toSettings? : SettingsDocument → Option Settings
  | named entries => do
    settings? (← single? "schemaFile" entries) (← single? "outputFolder" entries) (← single? "generateClient" entries)
      (← single? "lib" entries)
  | listed values => if values.length ≤ 4 then settings? values[0]? values[1]? values[2]? values[3]? else none

end SettingsDocument

namespace Settings

def isYaml (file : Path) : Bool :=
  file.extension? = some "yaml".toList || file.extension? = some "yml".toList

def ofText (file : Path) (text : Text) : Except Error Settings :=
  let document := if isYaml file then SettingsDocument.ofYaml? text else SettingsDocument.ofJson? text
  match document.bind (·.toSettings?) with
  | some settings => .ok settings
  | none => .error (.invalidSettings file.text)

end Settings

end SurrealZod
