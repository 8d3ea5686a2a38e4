import SurrealZod.Disk.Access
import SurrealZod.Generation.Report
import SurrealZod.Output.ClientFile
import SurrealZod.Settings.Basic

/-!
# A run

A run writes the output of a list of tables below the output folder. `_generated` holds what every run writes anew, a
table's folder there with all that is in it; `schema` holds what is written once and then belongs to the user; `client`
holds the client files. A table that fails is reported, and the run goes on with the next one.
-/

namespace SurrealZod

namespace Generation

open MonadDisk Disk

variable {m : Type → Type} [Monad m] [MonadDisk m]

def generatedFolder (settings : Settings) : Path := settings.outputFolder.child "_generated"

def schemaFolder (settings : Settings) : Path := settings.outputFolder.child "schema"

def clientFolder (settings : Settings) : Path := settings.outputFolder.child "client"

def writeShared (settings : Settings) : ExceptT DiskError m Unit := do
  makeFolders (generatedFolder settings)
  writeText ((generatedFolder settings).child "recordSchema.ts") (Output.recordSchema settings.lib)

/-- Writes the generated file of a table, in a folder that is emptied before. -/
def writeGenerated (settings : Settings) (schema : TableSchema) : ExceptT DiskError m Unit := do
  let stem := TableName.stem schema.table
  let folder := (generatedFolder settings).child stem
  if ← (isThere folder : m Bool) then removeTree folder
  makeFolders folder
  writeText (folder.child (stem ++ "SchemaGen.ts")) (Output.generatedSchema schema)

/-- Writes the custom files of a table that are not there yet. -/
def writeCustom (settings : Settings) (table : Text) : ExceptT DiskError m Unit := do
  let stem := TableName.stem table
  let folder := (schemaFolder settings).child stem
  makeFolders folder
  writeOnce (folder.child (stem ++ "Schema.ts")) (Output.customSchema table)
  writeOnce (folder.child (stem ++ "Types.ts")) (Output.customTypes settings.lib table)

def writeClient (settings : Settings) (table : Text) : ExceptT DiskError m Unit := do
  let folder := (clientFolder settings).child (TableName.stem table)
  makeFolders folder
  (Output.clientFiles settings.lib table).forM fun file => writeText (folder.child file.name) file.content

def writeTable (settings : Settings) (schema : TableSchema) : ExceptT DiskError m Unit := do
  writeGenerated settings schema
  writeCustom settings schema.table
  if settings.generateClient then writeClient settings schema.table

/-- Writes the files of a table, from its statements. -/
def runTable (settings : Settings) (table : TableStatements) : m TableOutcome := do
  match TableSchema.ofStatements table with
  | .error failure => return { table := table.name, failure := some failure }
  | .ok schema =>
    match ← (writeTable settings schema).run with
    | .ok () => return { table := table.name }
    | .error cause => return { table := table.name, failure := some (.disk cause) }

/-- Writes the output of the tables that a source lists. The source is asked only when the shared file is written. -/
def run (settings : Settings) (source : Except Error (List TableStatements)) : ExceptT Error m Report := do
  ExceptT.adapt .disk (writeShared settings)
  let tables ← MonadExcept.ofExcept source
  return { outcomes := ← tables.mapM fun table => (runTable settings table : m TableOutcome) }

/-- Writes the output of the tables in the schema file. -/
def runFile (settings : Settings) : ExceptT Error m Report := do
  let text ← ExceptT.adapt .disk (readText settings.schemaFile)
  run settings (.ok (Script.tables text))

end Generation

end SurrealZod
