import SurrealZod.Text.Basic

/-!
# Errors

An error is the cause of a failure. Its wording, the only part of it that a user sees, is one function on the cause.
-/

namespace SurrealZod

inductive DiskError where
  | notFound
  | alreadyExists
  | notFolder
  | isFolder
  | nameTooLong
  | nulInPath
  | notText
  | other (text : Text)
  deriving DecidableEq

def DiskError.message : DiskError → Text
  | .notFound => "No such file or directory (os error 2)"
  | .alreadyExists => "File exists (os error 17)"
  | .notFolder => "Not a directory (os error 20)"
  | .isFolder => "Is a directory (os error 21)"
  | .nameTooLong => "File name too long (os error 36)"
  | .nulInPath => "file name contained an unexpected NUL byte"
  | .notText => "stream did not contain valid UTF-8"
  | .other text => text

inductive Error where
  /-- A key that names no slot of a field definition. -/
  | unknownSlot (key : Text)
  /-- A source of tables that cannot list them. -/
  | source (reason : Text)
  /-- A field path with an empty segment, or one that does not begin with a field name. -/
  | emptyFieldPath (table path : Text)
  /-- A settings file that cannot be read as settings. -/
  | invalidSettings (file : Text)
  /-- A refused disk operation. -/
  | disk (cause : DiskError)
  deriving DecidableEq

def Error.message : Error → Text
  | .unknownSlot key => "Schema error: Unknown field definition key '" ++ key ++ "'"
  | .source reason => "Schema error: " ++ reason
  | .emptyFieldPath table path => "Empty field path in table '" ++ table ++ "': '" ++ path ++ "'"
  | .invalidSettings file => "Configuration error: Invalid config file '" ++ file ++ "'"
  | .disk cause => "IO error: " ++ cause.message

end SurrealZod
