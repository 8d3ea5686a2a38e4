import SurrealZod.Text.Quoted

/-!
# Validator expressions

The generated code describes data by expressions of the validator library. Texts from the schema enter an expression
only as string literals. A fragment is the expression of one field together with whether the field may be left out.
-/

namespace SurrealZod

namespace Zod

def any : Text := "z.any()"

def string : Text := "z.string()"

def array (element : Text) : Text := "z.array(" ++ element ++ ")"

def union (expressions : List Text) : Text := "z.union([" ++ Text.join [',', ' '] expressions ++ "])"

def enum (values : List Text) : Text :=
  "z.enum([" ++ Text.join [',', ' '] (values.map Text.quoted) ++ "])"

/-- The validator of references to records of some tables, or of any table. -/
def recordId : List Text → Text
  | [] => "recordId()"
  | [table] => "recordId(" ++ Text.quoted table ++ ")"
  | tables => "recordId([" ++ Text.join [',', ' '] (tables.map Text.quoted) ++ "])"

def optional (expression : Text) : Text := expression ++ ".optional()"

/-- The expression with a literal for what is left out. -/
def withDefault (expression literal : Text) : Text := expression ++ ".default(" ++ literal ++ ")"

/-- The expression with notes for its reader, if there are any. -/
def describe (expression : Text) (notes : List Text) : Text :=
  if notes = [] then expression
  else expression ++ ".describe(" ++ Text.quoted (Text.join [';', ' '] notes) ++ ")"

/-- The object expression that accepts keys it does not list. -/
def passthrough (expression : Text) : Text := expression ++ ".passthrough()"

/-- Whether a character may begin a bare property key. -/
def isKeyStart (c : Char) : Bool := c.isAlpha || c = '_' || c = '$'

/-- Whether a character may stand in a bare property key. -/
def isKeyPart (c : Char) : Bool := c.isAlphanum || c = '_' || c = '$'

/-- A name as a property key: bare if it is an ASCII identifier, else a string literal. -/
def propertyKey : Text → Text
  | [] => Text.quoted []
  | c :: rest => if isKeyStart c && rest.all isKeyPart then c :: rest else Text.quoted (c :: rest)

end Zod

/-- The expression of a field and whether the field may be left out. -/
structure Fragment where
  expression : Text
  optional : Bool
  deriving DecidableEq

def Fragment.render (fragment : Fragment) : Text :=
  if fragment.optional then Zod.optional fragment.expression else fragment.expression

end SurrealZod
