import SurrealZod.Text.Basic

/-!
# YAML nodes

What a settings file in YAML is read as. A scalar knows whether it was written plainly, because only a plain one can be
more than a text.
-/

namespace SurrealZod

inductive YamlNode where
  | scalar (plain : Bool) (text : Text)
  | sequence (items : List YamlNode)
  | mapping (entries : List (YamlNode × YamlNode))

def YamlNode.blank : YamlNode := .scalar true []

end SurrealZod
