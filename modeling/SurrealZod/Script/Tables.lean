import SurrealZod.Field.Definition
import SurrealZod.Script.FieldStatement
import SurrealZod.Script.Statements

/-!
# Tables of a schema text

The statements of a schema text are grouped by table, in order of first mention. A table's definition is its last
`DEFINE TABLE` statement, and its fields are its `DEFINE FIELD` statements in normal form. A table may be mentioned by
its fields alone; statements of any other kind, and field statements without a table, are passed over.
-/

namespace SurrealZod

structure TableStatements where
  name : Text
  /-- The statement that defines the table, empty if there is none. -/
  definition : Text := []
  fields : List Text := []
  deriving DecidableEq

namespace TableStatements

/-- Whether the table's definition declares it `SCHEMAFULL`, in any letter case. -/
def isStrict (table : TableStatements) : Bool :=
  Text.contains "SCHEMAFULL" (Text.upper table.definition)

end TableStatements

namespace Script

/-- A letter without its case: ASCII letters, and the long s as an s. -/
def foldCase (c : Char) : Char := if c = 'ſ' then 'S' else c.toUpper

/-- Whether a word is a given keyword in any letter case. -/
def isKeyword (keyword word : Text) : Bool := word.map foldCase = keyword

/-- The table's name at the head of what follows `DEFINE TABLE`. A modifier counts only if a name follows it. -/
def tableName? : List Text → Option Text
  | [] => none
  | [name] => some name
  | first :: second :: rest =>
    if isKeyword "OVERWRITE" first then some second
    else
      match rest with
      | third :: name :: _ =>
        if isKeyword "IF" first ∧ isKeyword "NOT" second ∧ isKeyword "EXISTS" third then some name
        else some first
      | _ => some first

inductive Declaration where
  | table (name : Text)
  | field
  | other
  deriving DecidableEq

/-- What a statement on one line with single spaces declares. -/
def declaration (statement : Text) : Declaration :=
  match statement.splitOn ' ' with
  | define :: kind :: rest =>
    if !isKeyword "DEFINE" define then .other
    else if isKeyword "TABLE" kind then ((tableName? rest).map .table).getD .other
    else if isKeyword "FIELD" kind ∧ rest ≠ [] then .field
    else .other
  | _ => .other

/-- The tables with one of them changed; a table not there yet is added at the end. -/
def modifyTable (name : Text) (change : TableStatements → TableStatements) :
    List TableStatements → List TableStatements
  | [] => [change { name }]
  | table :: rest =>
    if table.name = name then change table :: rest else table :: modifyTable name change rest

def addStatement (tables : List TableStatements) (statement : Text) : List TableStatements :=
  match declaration statement with
  | .table name => modifyTable name (fun table => { table with definition := statement }) tables
  | .field =>
    let field := normalizeField statement
    match (FieldDefinition.ofStatement field).table with
    | [] => tables
    | name => modifyTable name (fun table => { table with fields := table.fields ++ [field] }) tables
  | .other => tables

def tables (text : Text) : List TableStatements := (statements text).foldl addStatement []

end Script

end SurrealZod
