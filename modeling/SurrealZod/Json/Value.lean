import SurrealZod.Json.Numeral
import SurrealZod.Text.Keyed
import SurrealZod.Text.Quoted

/-!
# JSON values

A JSON value is what a JSON text stands for. It is written without white space, the members of an object in the
code-point order of their keys.
-/

namespace SurrealZod

inductive JsonValue where
  | null
  | boolean (value : Bool)
  | number (value : JsonNumber)
  | string (value : Text)
  | array (items : List JsonValue)
  | object (members : List (Text × JsonValue))

namespace JsonValue

mutual

def text : JsonValue → Text
  | null => "null"
  | boolean true => "true"
  | boolean false => "false"
  | number value => value.text
  | string value => Text.quoted value
  | array items => '[' :: Text.join [','] (itemTexts items) ++ [']']
  | object members => '{' :: Text.join [','] (memberTexts members) ++ ['}']

def itemTexts : List JsonValue → List Text
  | [] => []
  | item :: rest => text item :: itemTexts rest

def memberTexts : List (Text × JsonValue) → List Text
  | [] => []
  | (key, value) :: rest => (Text.quoted key ++ ':' :: text value) :: memberTexts rest

end

end JsonValue

end SurrealZod
