import SurrealZod.Disk.Path

/-!
# Settings

A run is set up by four settings. They come from a settings file, where each has a default, and may be overridden one by
one. Relative paths among them are then taken below a base folder.
-/

namespace SurrealZod

structure Settings where
  /-- The file that holds the schema text. -/
  schemaFile : Path := { text := "myschema.surql" }
  /-- The folder that receives the output. -/
  outputFolder : Path := { text := "client_generated" }
  /-- Whether client files are written. -/
  generateClient : Bool := true
  /-- The package that the output refers to. -/
  lib : Text := "surrealdb.js"
  deriving DecidableEq

/-- Settings that are given in place of others; those absent are not given. -/
structure Overrides where
  schemaFile : Option Path := none
  outputFolder : Option Path := none
  generateClient : Option Bool := none
  lib : Option Text := none
  deriving DecidableEq

namespace Settings

/-- The settings with those that are given in place of their own. -/
def merge (settings : Settings) (overrides : Overrides) : Settings where
  schemaFile := overrides.schemaFile.getD settings.schemaFile
  outputFolder := overrides.outputFolder.getD settings.outputFolder
  generateClient := overrides.generateClient.getD settings.generateClient
  lib := overrides.lib.getD settings.lib

/-- The settings with their relative paths below a base folder. -/
def resolve (settings : Settings) (base : Path) : Settings :=
  { settings with
    schemaFile := base.join settings.schemaFile
    outputFolder := base.join settings.outputFolder }

end Settings

end SurrealZod
