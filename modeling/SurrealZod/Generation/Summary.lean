import SurrealZod.Generation.Report
import SurrealZod.Text.Quoted
import SurrealZod.Yaml.Written

/-!
# Summaries

A report is printed as a record with the failed tables and the generated ones, in YAML or in JSON.
-/

namespace SurrealZod

inductive SummaryFormat where
  | yaml
  | json
  deriving DecidableEq

namespace Report

def indent (line : Text) : Text := "  " ++ line

/-! ### YAML -/

/-- A list below its key. Every item is given by its lines. -/
def yamlList (key : Text) (items : List (List Text)) : List Text :=
  match items with
  | [] => [key ++ ": []"]
  | _ => (key ++ ":") :: items.flatMap fun lines =>
    match lines with
    | [] => []
    | first :: rest => ("- " ++ first) :: rest.map indent

def yaml (report : Report) : Text :=
  let failed := report.failed.map fun (table, failure) =>
    ["error: " ++ Yaml.scalar failure.message, "table: " ++ Yaml.scalar table]
  let generated := report.generated.map fun table => [Yaml.scalar table]
  (yamlList "failed" failed ++ yamlList "generated" generated).flatMap (· ++ ['\n'])

/-! ### JSON -/

/-- The lines of a collection between its brackets, which stand alone only if something is between them. -/
def bracketed (opening closing : Char) (items : List (List Text)) : List Text :=
  match items with
  | [] => [[opening, closing]]
  | _ => [opening] :: separated items ++ [[closing]]
where
  /-- The lines of the items, indented, with a comma behind each item but the last. -/
  separated : List (List Text) → List Text
    | [] => []
    | [last] => last.map indent
    | item :: rest => (item.dropLast ++ [item.getLastD [] ++ [',']]).map indent ++ separated rest

/-- The lines of a member of a record, which begin with its key. -/
def member (key : Text) : List Text → List Text
  | [] => []
  | first :: rest => (Text.quoted key ++ ": " ++ first) :: rest

def json (report : Report) : Text :=
  let failed := report.failed.map fun (table, failure) =>
    bracketed '{' '}' [member "error" [Text.quoted failure.message], member "table" [Text.quoted table]]
  let generated := report.generated.map fun table => [Text.quoted table]
  let lines := bracketed '{' '}'
    [member "failed" (bracketed '[' ']' failed), member "generated" (bracketed '[' ']' generated)]
  lines.flatMap (· ++ ['\n'])

def summary (report : Report) : SummaryFormat → Text
  | .yaml => report.yaml
  | .json => report.json

end Report

end SurrealZod
