import SurrealZod.Disk.Access
import SurrealZod.Settings.Document

/-!
# Reading a settings file

A settings file may be missing: then every setting has its default.
-/

namespace SurrealZod

def Settings.load {m : Type → Type} [Monad m] [MonadDisk m] (file : Path) : ExceptT Error m Settings := do
  match ← (MonadDisk.readText file : ExceptT DiskError m Text).run with
  | .ok text => MonadExcept.ofExcept (Settings.ofText file text)
  | .error .notFound => return {}
  | .error cause => throw (.disk cause)

end SurrealZod
