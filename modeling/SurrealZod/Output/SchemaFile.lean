import SurrealZod.Zod.Declaration

/-!
# Schema files

Two kinds of files hold schemas. Generated files are written anew on every run: one per table with its two declarations,
and one for all tables with the validator of record references. Custom files are written once and then belong to the
user: the schemas that extend the generated ones, and the types they describe.
-/

namespace SurrealZod

namespace Output

/-- The lines as a text, each of them ended. -/
def ofLines (lines : List Text) : Text := lines.flatMap (· ++ ['\n'])

def warning : Text :=
  ofLines
    ["// ====================",
      "// DO NOT EDIT THIS FILE!",
      "// This file is autogenerated and will be overwritten during generation!",
      "// ====================",
      ""]

def generatedSchema (schema : TableSchema) : Text :=
  warning ++ ofLines
    ["import { z } from \"zod\";",
      if schema.usesRecordId then "import { recordId } from \"../recordSchema.js\"" else "",
      "",
      "// the create schema for table " ++ schema.table,
      "export " ++ schema.input ++ ";",
      "",
      "// the select schema for table " ++ schema.table,
      "export " ++ schema.output ++ ";",
      ""]

/-- The generated file with the validator of record references. -/
def recordSchema (lib : Text) : Text :=
  warning ++ ofLines
    ["import { z } from \"zod\";",
      "import { RecordId } from \"" ++ lib ++ "\";",
      "",
      "export const recordId = <Table extends string = string>(tableName?: Table | Table[]) =>",
      "  z.custom<RecordId<Table>>((value) => \x7b",
      "    if (!(value instanceof RecordId)) return false;",
      "    if (tableName === undefined) return true;",
      "    const tables: string[] = Array.isArray(tableName) ? tableName : [tableName];",
      "    return tables.includes(value.tb);",
      "  \x7d, \x7b message: `expected a record id$\x7btableName ? ` of $\x7btableName\x7d` : \"\"\x7d` \x7d);"]

def customSchema (table : Text) : Text :=
  let stem := TableName.stem table
  let input := TableName.inputSchema table
  let output := TableName.outputSchema table
  ofLines
    ["/* Place your custom changes here */",
      "",
      "import { z } from \"zod\";",
      "",
      "import \x7b " ++ input ++ ", " ++ output ++ " \x7d from \"../../_generated/" ++ stem ++ "/" ++ stem ++
        "SchemaGen.js\";",
      "",
      "// payload schema for creating a new " ++ table ++ " entity",
      "export const " ++ stem ++ "CreateSchema = " ++ input ++ ".merge(z.object(\x7b",
      "  // add your custom fields here, which are not part of SurrealDB table schema",
      "  // they are not overwritten by the next run",
      "\x7d))",
      "",
      "// payload schema for fetching a " ++ table ++ " entity",
      "export const " ++ stem ++ "Schema = " ++ output ++ ".merge(z.object(\x7b",
      "  id: z.object(\x7b tb: z.string(), id: z.string() \x7d),",
      "  // add your custom fields here, which are not part of SurrealDB table schema",
      "  // they are not overwritten by the next run",
      "\x7d))"]

def customTypes (lib table : Text) : Text :=
  let stem := TableName.stem table
  let type := TableName.typeName table
  ofLines
    ["/* Place your custom changes here */",
      "",
      "import { z } from \"zod\";",
      "import { type RecordId } from \"" ++ lib ++ "\";",
      "",
      "import \x7b " ++ stem ++ "CreateSchema, " ++ stem ++ "Schema \x7d from \"./" ++ stem ++ "Schema.js\";",
      "",
      "// the create type for table " ++ table,
      "export type " ++ type ++ "Create = z.input<typeof " ++ stem ++ "CreateSchema>",
      "",
      "// the select type for table " ++ table,
      "export type " ++ type ++ " = z.output<typeof " ++ stem ++ "Schema> & \x7bid: RecordId<string>\x7d"]

end Output

end SurrealZod
