import SurrealZod.Script.Tables
import SurrealZod.Tree.FieldTree
import SurrealZod.Zod.Constraint
import SurrealZod.Zod.TableName

/-!
# Schema declarations

A table has two schemas: the input schema checks what is written and leaves out the fields that the database computes,
and the output schema checks what is read and has every field. A schema is an object expression with one line per
property, indented by its depth. A table that is not strict accepts keys beyond its fields.
-/

namespace SurrealZod

inductive SchemaKind where
  | input
  | output
  deriving DecidableEq

def SchemaKind.schemaName (table : Text) : SchemaKind → Text
  | .input => TableName.inputSchema table
  | .output => TableName.outputSchema table

/-- Whether a schema leaves out the field of a definition: one that the database computes is no input. -/
def SchemaKind.omits (kind : SchemaKind) (definition : Option FieldDefinition) : Bool :=
  kind = .input && (definition.bind (·.value)).isSome

namespace Zod

def indent (depth : Nat) : Text := List.replicate (2 * depth) ' '

/-- An object expression over the lines of its properties. -/
def object (depth : Nat) (lines : List Text) : Text :=
  if lines = [] then "z.object(\x7b\x7d)"
  else "z.object(\x7b\n" ++ Text.join ['\n'] lines ++ '\n' :: indent depth ++ "\x7d)"

def property (depth : Nat) (name expression : Text) : Text :=
  indent depth ++ propertyKey name ++ ": " ++ expression ++ ","

end Zod

namespace FieldNode

/-- An object's fragment: its expression under the constraints of its definition, if it has one. -/
def objectFragment (definition : Option FieldDefinition) (object : Text) : Fragment :=
  match definition with
  | some definition => constrain object definition definition.hasOptionalType
  | none => { expression := object, optional := false }

/-- A list's fragment, from its definition and the expression of its elements. A list whose elements are not described
is described by its own type, if that is an array type. -/
def listFragment (definition : Option FieldDefinition) (element : Option Text) : Fragment :=
  match definition, element with
  | some definition, some element => constrain (Zod.array element) definition definition.hasOptionalType
  | some definition, none =>
    if (definition.fieldType.map FieldType.isArray).getD false then definition.leafFragment
    else constrain (Zod.array Zod.any) definition definition.hasOptionalType
  | none, element => { expression := Zod.array (element.getD Zod.any), optional := false }

mutual

/-- The fragment of a node, or `none` if the schema leaves it out. -/
def fragment? (kind : SchemaKind) (depth : Nat) : FieldNode → Option Fragment
  | leaf definition => if kind.omits definition then none else some definition.leafFragment
  | branch definition children =>
    if kind.omits definition then none
    else some (objectFragment definition (Zod.object depth (properties kind (depth + 1) children)))
  | list definition none => if kind.omits definition then none else some (listFragment definition none)
  | list definition (some element) =>
    if kind.omits definition then none
    else some (listFragment definition ((fragment? kind depth element).map (·.expression)))

/-- The lines of the children that the schema has, in their order. -/
def properties (kind : SchemaKind) (depth : Nat) : List (Text × FieldNode) → List Text
  | [] => []
  | (name, node) :: rest =>
    match fragment? kind depth node with
    | some fragment => Zod.property depth name fragment.expression :: properties kind depth rest
    | none => properties kind depth rest

end

end FieldNode

namespace FieldTree

def schemaExpression (tree : FieldTree) (kind : SchemaKind) (strict : Bool) : Text :=
  let object := Zod.object 0 (tree.root.children |> FieldNode.properties kind 1)
  if strict then object else Zod.passthrough object

/-- The declaration of a table's schema as a constant. -/
def declaration (tree : FieldTree) (kind : SchemaKind) (strict : Bool) : Text :=
  "const " ++ kind.schemaName tree.table ++ " = " ++ tree.schemaExpression kind strict

end FieldTree

structure TableSchema where
  table : Text
  strict : Bool
  input : Text
  output : Text
  deriving DecidableEq

namespace TableSchema

/-- Whether a declaration refers to the shared validator of record references. -/
def usesRecordId (schema : TableSchema) : Bool :=
  Text.contains "recordId(" schema.input || Text.contains "recordId(" schema.output

/-- The schema of a table, from its statements. -/
def ofStatements (table : TableStatements) : Except Error TableSchema := do
  let tree ← FieldTree.ofDefinitions table.name (table.fields.map FieldDefinition.ofStatement)
  let strict := table.isStrict
  return {
    table := table.name, strict
    input := tree.declaration .input strict
    output := tree.declaration .output strict }

end TableSchema

/-- The schemas of a schema text, or why a table has none, in the order of the tables. -/
def Script.schemas (text : Text) : List (Except Error TableSchema) := (tables text).map TableSchema.ofStatements

end SurrealZod
