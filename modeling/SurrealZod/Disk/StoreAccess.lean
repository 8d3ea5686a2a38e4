import SurrealZod.Disk.Access
import SurrealZod.Disk.Store

/-!
# Access to a store

A store is a disk for programs that keep it as their state. A path is followed part by part from the root, and only
folders are walked through. Relative paths begin at the root, too.
-/

namespace SurrealZod

namespace Store

/-! ### Paths -/

/-- Where one more part of a path leads from a location. -/
def step (store : Store) (here : Location) (part : Text) : Except DiskError Location :=
  match store.kind? here with
  | none => .error .notFound
  | some (.file _) => .error .notFolder
  | some .folder =>
    if part = ['.'] then .ok here
    else if part = ['.', '.'] then .ok here.dropLast
    else if Path.isTooLongName part then .error .nameTooLong
    else .ok (here ++ [part])

/-- Where a path leads. Something need not be there, but a folder has to be above it. -/
def locate (store : Store) (path : Path) : Except DiskError Location := do
  path.check
  path.parts.foldlM store.step []

/-- What a path leads to. One that ends in a slash leads to a folder. -/
def lookup (store : Store) (path : Path) : Except DiskError Kind := do
  match store.kind? (← store.locate path) with
  | none => .error .notFound
  | some (.file content) => if path.endsInSlash then .error .notFolder else .ok (.file content)
  | some .folder => .ok .folder

/-! ### Operations -/

def readText (store : Store) (path : Path) : Except DiskError Text := do
  match ← store.lookup path with
  | .folder => .error .isFolder
  | .file (.binary _) => .error .notText
  | .file (.text text) => .ok text

def isThere (store : Store) (path : Path) : Bool := (store.lookup path).isOk

def isFolder (store : Store) (path : Path) : Bool :=
  match store.lookup path with
  | .ok .folder => true
  | _ => false

/-- Makes a file, or replaces the content of the one that is there. -/
def write (store : Store) (path : Path) (content : Content) : Except DiskError Store := do
  let location ← store.locate path
  if path.endsInSlash ∨ store.kind? location = some .folder then .error .isFolder
  else .ok (store.put location (.file content))

def makeFolder (store : Store) (path : Path) : Except DiskError Store := do
  let location ← store.locate path
  if (store.kind? location).isSome then .error .alreadyExists
  else .ok (store.put location .folder)

def removeTree (store : Store) (path : Path) : Except DiskError Store := do
  match ← store.lookup path with
  | .file _ => .error .notFolder
  | .folder => .ok (store.erase (← store.locate path))

def removeFile (store : Store) (path : Path) : Except DiskError Store := do
  match ← store.lookup path with
  | .folder => .error .isFolder
  | .file _ => .ok (store.erase (← store.locate path))

/-! ### Programs -/

def look {α : Type} (f : Store → α) : StateM Store α := fun store => (f store, store)

/-- The program that changes the store, unless that is refused. -/
def change (f : Store → Except DiskError Store) : ExceptT DiskError (StateM Store) Unit :=
  ExceptT.mk fun store =>
    match f store with
    | .ok changed => (.ok (), changed)
    | .error cause => (.error cause, store)

instance : MonadDisk (StateM Store) where
  readText path := ExceptT.mk (look (·.readText path))
  writeText path text := change (·.write path (.text text))
  makeFolder path := change (·.makeFolder path)
  removeTree path := change (·.removeTree path)
  isThere path := look (·.isThere path)
  isFolder path := look (·.isFolder path)

end Store

end SurrealZod
