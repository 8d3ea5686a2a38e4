import SurrealZod.Field.Definition
import SurrealZod.Json.Form
import SurrealZod.Zod.FieldType

/-!
# Constraints of a field

The clauses of a definition constrain the expression of its type. A known assertion refines a string, and a list of
string literals replaces the type by those strings; other assertions and lists become notes, so that they stay visible.
A default that is a literal is written out, and any default makes the field optional. Optionality is written once, at
the end.
-/

namespace SurrealZod

namespace Constraint

/-- The refinements of strings by the assertions that bring them, in lower case and without white space. -/
def refinements : List (Text × Text) :=
  [("string::is::email($value)", ".email()"), ("string::is::url($value)", ".url()"),
    ("string::is::uuid($value)", ".uuid()")]

def refinement? (assertion : Text) : Option Text :=
  Text.get? (Text.lower (assertion.filter (!Text.isBlank ·))) refinements

inductive Effect where
  | nothing
  | refine (call : Text)
  | note (text : Text)
  deriving DecidableEq

/-- The effect of an assertion. Only an expression that begins as a string is refined, and to assert that a value is
there says nothing. -/
def effect (base : Text) : Option Text → Effect
  | none => .nothing
  | some [] => .nothing
  | some assertion =>
    match refinement? assertion with
    | some call => if Zod.string <+: base then .refine call else .note ("assert: " ++ assertion)
    | none => if assertion = "$value" then .nothing else .note ("assert: " ++ assertion)

def Effect.calls : Effect → Text
  | refine call => call
  | _ => []

def Effect.notes : Effect → List Text
  | note text => [text]
  | _ => []

/-- The text of a string literal in single or double quotes. -/
def literal? (item : Text) : Option Text :=
  (Text.between? '\'' '\'' item).or (Text.between? '"' '"' item)

/-- The strings of a bracketed list, if it holds string literals only, and at least one. -/
def enumValues? (inside : Text) : Option (List Text) :=
  match Text.between? '[' ']' (Text.trim inside) with
  | none => none
  | some inner =>
    match ((Text.splitTopLevel ',' inner).filter (!·.isEmpty)).mapM literal? with
    | some (value :: values) => some (value :: values)
    | _ => none

/-- The note on a list of allowed values that is not a list of strings. -/
def insideNotes : Option Text → List Text
  | none => []
  | some inside => if (enumValues? inside).isSome then [] else ["inside: " ++ inside]

/-- A default as a literal of the generated code; `none` for an expression that only the database can evaluate. A text
between single quotes is taken as one string. -/
def defaultLiteral? (default : Text) : Option Text :=
  match Text.between? '\'' '\'' (Text.trim default) with
  | some inner => some (Text.quoted inner)
  | none => (JsonValue.ofText? (Text.trim default)).map (·.text)

/-- The expression with its optionality written at the end: a default, or a mere option. -/
def finish (expression : Text) (default : Option Text) (optional : Bool) : Fragment :=
  match default with
  | some text =>
    match defaultLiteral? text with
    | some literal => { expression := Zod.withDefault expression literal, optional := true }
    | none => { expression := Zod.optional expression, optional := true }
  | none => { expression := if optional then Zod.optional expression else expression, optional }

end Constraint

/-- The base expression under the assertion, the default and the optionality of a definition. The list of allowed values
only leaves a note here. -/
def constrain (base : Text) (definition : FieldDefinition) (optional : Bool) : Fragment :=
  let effect := Constraint.effect base definition.assert
  let notes := effect.notes ++ Constraint.insideNotes definition.inside
  Constraint.finish (Zod.describe (base ++ effect.calls) notes) definition.defaultValue optional

namespace FieldDefinition

/-- The type of a field; one without a type takes anything. -/
def typeText (definition : FieldDefinition) : Text := definition.fieldType.getD "any"

def hasOptionalType (definition : FieldDefinition) : Bool :=
  (definition.fieldType.map fun type => (FieldType.fragment type).optional).getD false

/-- The expression of a scalar. Allowed strings take the place of its type, or of the elements of an array type. -/
def leafFragment (definition : FieldDefinition) : Fragment :=
  let mapped := FieldType.fragment definition.typeText
  let base :=
    match definition.inside.bind Constraint.enumValues? with
    | some values =>
      if FieldType.isArray definition.typeText then Zod.array (Zod.enum values) else Zod.enum values
    | none => mapped.expression
  constrain base definition mapped.optional

end FieldDefinition

end SurrealZod
