import SurrealZod.CommandLine.Options
import SurrealZod.Generation.Run
import SurrealZod.Settings.File

/-!
# The command

The command takes its settings from the settings file and the options, and either writes the output and prints a
summary, or prints the generated schemas and leaves the disk as it is. It ends with code 0 if all went well, with 1 if
the run or one of its tables failed, and with 2 if the options are not understood.
-/

namespace SurrealZod

inductive CommandError where
  | run (cause : Error)
  /-- The schema file cannot be read for printing the schemas. -/
  | unreadableSchema (file : Path) (cause : DiskError)
  deriving DecidableEq

def CommandError.message : CommandError → Text
  | .run cause => cause.message
  | .unreadableSchema file cause => "Unable to read schema file '" ++ file.text ++ "': " ++ cause.message

structure CommandOutcome where
  code : Nat
  /-- What is printed. -/
  printed : Text := []
  failure : Option CommandError := none
  deriving DecidableEq

namespace CommandLine

open MonadDisk

variable {m : Type → Type} [Monad m] [MonadDisk m]

def defaultSettingsFile : Path := { text := "surql-gen.json" }

def versionLine : Text := "surqlgen 1.0.1\n"

/-- The settings that the options make in a working folder. -/
def settings (folder : Path) (options : Options) : ExceptT Error m Settings := do
  let loaded ← Settings.load (folder.join (options.settingsFile.getD defaultSettingsFile))
  return (loaded.merge options.overrides).resolve folder

/-- The generated schemas of the tables that have one, each followed by an empty line. -/
def schemaListing (schemas : List (Except Error TableSchema)) : Text :=
  schemas.flatMap fun schema =>
    match schema with
    | .ok schema => Output.generatedSchema schema ++ ['\n']
    | .error _ => []

def exitCode (isOk : Bool) : Nat := if isOk then 0 else 1

def printSchemas (settings : Settings) : ExceptT CommandError m CommandOutcome := do
  let text ← ExceptT.adapt (.unreadableSchema settings.schemaFile) (readText settings.schemaFile)
  let schemas := Script.schemas text
  return { code := exitCode (schemas.all (·.isOk)), printed := schemaListing schemas }

def writeOutput (settings : Settings) (format : SummaryFormat) : ExceptT CommandError m CommandOutcome := do
  let report ← ExceptT.adapt .run (Generation.runFile settings)
  return { code := exitCode report.isOk, printed := report.summary format }

def generate (folder : Path) (options : Options) : ExceptT CommandError m CommandOutcome := do
  let settings ← ExceptT.adapt .run (settings folder options)
  if options.dryRun then printSchemas settings else writeOutput settings (options.format.getD .yaml)

def run (folder : Path) (arguments : List Text) : m CommandOutcome := do
  match request? arguments with
  | none => return { code := 2 }
  | some .version => return { code := 0, printed := versionLine }
  | some (.generate options) =>
    match ← (generate folder options).run with
    | .ok outcome => return outcome
    | .error failure => return { code := 1, failure := some failure }

end CommandLine

end SurrealZod
