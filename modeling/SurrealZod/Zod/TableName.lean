import SurrealZod.Text.NameWords

/-!
# Names from a table

Files, folders, constants and types of a table are named by its name in camel case, the stem.
-/

namespace SurrealZod

namespace TableName

/-- The name of the table's files and folders, and the beginning of its constants. -/
def stem (table : Text) : Text := Text.lowerCamel table

def typeName (table : Text) : Text := Text.upperCamel table

/-- The name of the schema of what is written to the table. -/
def inputSchema (table : Text) : Text := stem table ++ "InputSchemaGen"

/-- The name of the schema of what is read from the table. -/
def outputSchema (table : Text) : Text := stem table ++ "OutputSchemaGen"

end TableName

end SurrealZod
