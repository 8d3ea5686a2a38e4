import SurrealZod.Error
import SurrealZod.Text.Utf8

/-!
# Paths

A path is a text whose parts are separated by slashes. Paths are joined and shown as they are written; nothing in them
is resolved before the disk is asked. No disk takes every path: paths and the names in them have a greatest length.
-/

namespace SurrealZod

structure Path where
  text : Text
  deriving DecidableEq

namespace Path

def isAbsolute (path : Path) : Bool := path.text.head? = some '/'

/-- A path below another one. An absolute path stands for itself, and an empty one ends the other in a slash. -/
def join (base more : Path) : Path :=
  if more.isAbsolute then more
  else if base.text = [] ∨ base.text.getLast? = some '/' then { text := base.text ++ more.text }
  else { text := base.text ++ '/' :: more.text }

/-- A path below another one, by a text. -/
def child (base : Path) (more : Text) : Path := base.join { text := more }

/-- The parts of a path. Repeated slashes separate nothing. -/
def parts (path : Path) : List Text := (path.text.splitOn '/').filter (!·.isEmpty)

def steps (path : Path) : List Text := path.parts.filter (· ≠ ['.'])

/-- The path of given parts, from the root of the disk or not. -/
def ofParts (absolute : Bool) (parts : List Text) : Path :=
  { text := (if absolute then ['/'] else []) ++ Text.join ['/'] parts }

def endsInSlash (path : Path) : Bool := path.text.getLast? = some '/'

/-- The name of the file or folder that a path leads to, unless the path ends in a step up. -/
def name? (path : Path) : Option Text :=
  match path.steps.getLast? with
  | none => none
  | some name => if name = ['.', '.'] then none else some name

/-- What follows the last dot of the name, unless the name has no dot or begins with its only one. -/
def extension? (path : Path) : Option Text :=
  match path.name? with
  | none => none
  | some name =>
    match name.reverse.dropWhile (· ≠ '.') with
    | [] => none
    | [_] => none
    | _ => some (name.reverse.takeWhile (· ≠ '.')).reverse

/-! ### Limits -/

def maxNameSize : Nat := 255

def maxSize : Nat := 4095

def isTooLongName (name : Text) : Bool := maxNameSize < Utf8.size name

def check (path : Path) : Except DiskError Unit :=
  if '\x00' ∈ path.text then .error .nulInPath
  else if maxSize < Utf8.size path.text then .error .nameTooLong
  else .ok ()

end Path

end SurrealZod
