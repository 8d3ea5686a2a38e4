import SurrealZod.CommandLine.Command
import SurrealZod.Disk.Store

/-!
# The program

The command on the disk of the system. This is the only module that does anything: it asks the system for what a run
needs, prints what the command prints, and ends with its code.
-/

namespace SurrealZod

namespace Program

def causeOf : IO.Error → DiskError
  | .noFileOrDirectory .. => .notFound
  | .alreadyExists .. => .alreadyExists
  | .inappropriateType _ 20 _ => .notFolder
  | .inappropriateType _ 21 _ => .isFolder
  | .invalidArgument _ 36 _ => .nameTooLong
  | e => .other (toString e)

def written (path : Path) : String := String.ofList path.text

/-- Asks the system for something at a path that it may refuse. -/
def ask {α : Type} (path : Path) (action : String → IO α) : ExceptT DiskError IO α :=
  ExceptT.mk do
    match path.check with
    | .error cause => return .error cause
    | .ok () =>
      match ← (action (written path)).toBaseIO with
      | .ok value => return .ok value
      | .error e => return .error (causeOf e)

instance : MonadDisk IO where
  readText path := do
    let bytes ← ask path (IO.FS.readBinFile ·)
    match Content.ofBytes bytes.toList with
    | .text text => return text
    | .binary _ => throw .notText
  writeText path text := ask path (IO.FS.writeFile · (String.ofList text))
  makeFolder path := ask path (IO.FS.createDir ·)
  removeTree path := ask path (IO.FS.removeDirAll ·)
  isThere path := do
    match ← (IO.FS.realPath (written path)).toBaseIO with
    | .ok _ => return true
    | .error _ => return false
  isFolder path := do
    match ← (IO.FS.realPath (written path)).toBaseIO with
    | .ok found => found.isDir
    | .error _ => return false

end Program

end SurrealZod

open SurrealZod in
def main (arguments : List String) : IO UInt32 := do
  let folder : Path := { text := (← IO.currentDir).toString }
  let outcome : CommandOutcome ← CommandLine.run folder (arguments.map String.toList)
  IO.print (String.ofList outcome.printed)
  if let some failure := outcome.failure then
    IO.eprintln ("ERROR:" ++ String.ofList failure.message)
  if outcome.code = 2 then
    IO.eprintln "The options are not understood."
  return outcome.code.toUInt32
