import SurrealZod.Disk.Path
import SurrealZod.Error

/-!
# Access to a disk

What a program may ask of a disk, and what it makes of that: folders with those above them, and files that are written
only once. The disk refuses an operation with a cause; what was done before a refusal stays done.
-/

namespace SurrealZod

/-- The monads whose programs have a disk. -/
class MonadDisk (m : Type → Type) where
  /-- The text of a file. -/
  readText : Path → ExceptT DiskError m Text
  /-- Makes a file of a text, or replaces the content of the file that is there. -/
  writeText : Path → Text → ExceptT DiskError m Unit
  /-- Makes a folder in one that is there. -/
  makeFolder : Path → ExceptT DiskError m Unit
  /-- Removes a folder and all that is in it. -/
  removeTree : Path → ExceptT DiskError m Unit
  /-- Whether a path leads to something. -/
  isThere : Path → m Bool
  /-- Whether a path leads to a folder. -/
  isFolder : Path → m Bool

namespace Disk

open MonadDisk

variable {m : Type → Type} [Monad m] [MonadDisk m]

/-- Accepts a refusal to make a folder if a folder is there. -/
def acceptFolder (path : Path) (cause : DiskError) : ExceptT DiskError m Unit := do
  unless ← (isFolder path : m Bool) do throw cause

/-- Makes sure of a folder, by a way to make sure of the one above it. -/
def makeFolderIn (above : ExceptT DiskError m Unit) (path : Path) : ExceptT DiskError m Unit :=
  tryCatch (makeFolder path) fun
    | .notFound => do
      above
      tryCatch (makeFolder path) (acceptFolder path)
    | cause => acceptFolder path cause

/-- Makes sure of the folder with the given parts, the last one first, and of those above it. -/
def makeFoldersOf (absolute : Bool) : List Text → ExceptT DiskError m Unit
  | [] => pure ()
  | name :: above => makeFolderIn (makeFoldersOf absolute above) (Path.ofParts absolute (name :: above).reverse)

def makeFoldersAbove (path : Path) : ExceptT DiskError m Unit :=
  makeFoldersOf path.isAbsolute path.steps.dropLast.reverse

/-- Makes sure of a folder and of all folders above it. -/
def makeFolders (path : Path) : ExceptT DiskError m Unit := makeFolderIn (makeFoldersAbove path) path

/-- Writes a file unless something is there already. -/
def writeOnce (path : Path) (text : Text) : ExceptT DiskError m Unit := do
  unless ← (isThere path : m Bool) do writeText path text

end Disk

end SurrealZod
