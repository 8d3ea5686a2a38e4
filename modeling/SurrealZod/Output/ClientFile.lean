import SurrealZod.Output.SchemaFile

/-!
# Client files

A table's client is five files with one function each, which create, fetch, list, update and delete its records. Each
file uses the table's custom schemas and types. The names inside a file come from the table's stem, the names of the
files and the listed table from the table's own name.
-/

namespace SurrealZod

structure ClientFile where
  name : Text
  content : Text
  deriving DecidableEq

namespace Output

def importSchema (names stem : Text) : Text :=
  "import \x7b " ++ names ++ " \x7d from \"../../schema/" ++ stem ++ "/" ++ stem ++ "Schema.js\";"

def importTypes (names stem : Text) : Text :=
  "import type \x7b " ++ names ++ " \x7d from \"../../schema/" ++ stem ++ "/" ++ stem ++ "Types.js\";"

def createContent (lib stem : Text) : Text :=
  let type := TableName.typeName stem
  ofLines
    ["",
      "import { type Surreal } from \"" ++ lib ++ "\";",
      "",
      importSchema (stem ++ "CreateSchema") stem,
      importTypes (type ++ ", " ++ type ++ "Create") stem,
      "",
      "export const create" ++ type ++ " = async function (db: Surreal, tableName: string, data: " ++ type ++
        "Create) \x7b",
      "  const payload = " ++ stem ++ "CreateSchema.parse(data);",
      "",
      "  const result = await db.create<" ++ type ++ "Create>(tableName, payload);",
      "",
      "  return result[0] as unknown as " ++ type ++ ";",
      "\x7d;"]

def getByIdContent (lib stem : Text) : Text :=
  let type := TableName.typeName stem
  ofLines
    ["",
      "import { RecordId, type Surreal } from \"" ++ lib ++ "\";",
      "",
      importSchema (stem ++ "Schema") stem,
      importTypes type stem,
      "",
      "export const get" ++ type ++ "ById = async function (db: Surreal, id: RecordId<string>) \x7b",
      "  const key = " ++ stem ++ "Schema.pick(\x7b id: true \x7d).parse(\x7b id \x7d);",
      "",
      "  const result = await db.query<[" ++ type ++ "|undefined]>(\"SELECT * FROM ONLY $id\", \x7b id \x7d);",
      "",
      "  return result[0];",
      "\x7d;"]

def getAllContent (lib stem table : Text) : Text :=
  let type := TableName.typeName stem
  ofLines
    ["",
      "import { type Surreal } from \"" ++ lib ++ "\";",
      "",
      importTypes type stem,
      "",
      "export const getAll" ++ type ++ "s = async function (db: Surreal) \x7b",
      "  return db.select<" ++ type ++ ">(\"" ++ table ++ "\");",
      "\x7d;"]

def updateContent (lib stem : Text) : Text :=
  let type := TableName.typeName stem
  ofLines
    ["",
      "import { RecordId, type Surreal } from \"" ++ lib ++ "\";",
      "",
      importSchema (stem ++ "CreateSchema") stem,
      importTypes (type ++ ", " ++ type ++ "Create") stem,
      "",
      "export const update" ++ type ++ " = async function (db: Surreal, id: RecordId<string>, data: Partial<" ++
        type ++ "Create>) \x7b",
      "  const payload = " ++ stem ++ "CreateSchema.partial().parse(data);",
      "",
      "  return db.merge<" ++ type ++ ">(id, payload);",
      "\x7d;"]

def deleteContent (lib stem : Text) : Text :=
  let type := TableName.typeName stem
  ofLines
    ["",
      "import { type Surreal, RecordId } from \"" ++ lib ++ "\";",
      "",
      importTypes type stem,
      "",
      "export const delete" ++ type ++ " = async function (db: Surreal, id: RecordId) \x7b",
      "  return db.delete<" ++ type ++ ">(id)",
      "\x7d;"]

def clientFiles (lib table : Text) : List ClientFile :=
  let stem := TableName.stem table
  let type := TableName.typeName table
  [{ name := "create" ++ type ++ ".ts", content := createContent lib stem },
    { name := "get" ++ type ++ "ById.ts", content := getByIdContent lib stem },
    { name := "getAll" ++ type ++ "s.ts", content := getAllContent lib stem table },
    { name := "update" ++ type ++ ".ts", content := updateContent lib stem },
    { name := "delete" ++ type ++ ".ts", content := deleteContent lib stem }]

end Output

end SurrealZod
