import SurrealZod.Field.Slot

/-!
# Field statements in normal form

Field statements are written in several ways. The normal form is `DEFINE FIELD <path> ON TABLE <table>` followed by the
clauses that have a slot: a modifier `OVERWRITE` or `IF NOT EXISTS` in front of the path is dropped, the word `TABLE`
that may be left out behind `ON` is written, and behind the table's name the flags `FLEXIBLE` and `READONLY` and the
clauses `PERMISSIONS` and `COMMENT` are dropped. A dropped clause ends at the next keyword that opens a slot.
-/

namespace SurrealZod

namespace Script

inductive FieldStage where
  /-- Before the word `ON`. -/
  | path
  /-- Behind `ON`, before the table's name. -/
  | table
  /-- Behind the table's name, inside a dropped clause or not. -/
  | clauses (dropping : Bool)
  deriving DecidableEq

namespace FieldStage

/-- The stage behind a word that is dropped with its clause; `none` if the word is not part of a dropped clause. -/
def afterDropped? (word : Text) : FieldStage → Option FieldStage
  | path => none
  | table => none
  | clauses dropping =>
    let capitals := Text.upper word
    if capitals = "FLEXIBLE" ∨ capitals = "READONLY" then some (clauses dropping)
    else if capitals = "PERMISSIONS" ∨ capitals = "COMMENT" then some (clauses true)
    else
      match WordClass.of word with
      | .opens _ => none
      | _ => if dropping then some (clauses true) else none

def afterKept (word : Text) : FieldStage → FieldStage
  | path => if Text.upper word = "ON" then table else path
  | table => if Text.upper word = "ON" ∨ Text.upper word = "TABLE" then table else clauses false
  | clauses _ => clauses false

end FieldStage

/-- The number of words that a modifier at the head of the words takes up. -/
def modifierLength : List Text → Nat
  | [] => 0
  | first :: rest =>
    if Text.upper first = "OVERWRITE" then 1
    else if Text.upper first = "IF" ∧ (rest.take 2).map Text.upper = (["NOT", "EXISTS"] : List Text) then 3
    else 0

/-- A word that is kept, with the word `TABLE` behind an `ON` that lacks it. -/
def withTable (stage : FieldStage) (word : Text) (rest : List Text) : List Text :=
  if stage = .path ∧ Text.upper word = "ON" ∧ rest.head?.map Text.upper ≠ some "TABLE" then [word, "TABLE"]
  else [word]

/-- The words of the normal form, from a stage on. `skipped` words at the head belong to a modifier, which only the
word at position two begins. -/
def normalWords (position skipped : Nat) (stage : FieldStage) : List Text → List Text
  | [] => []
  | word :: rest =>
    match skipped with
    | more + 1 => normalWords (position + 1) more stage rest
    | 0 =>
      match stage.afterDropped? word with
      | some next => normalWords (position + 1) 0 next rest
      | none =>
        match (if position = 2 then modifierLength (word :: rest) else 0) with
        | more + 1 => normalWords (position + 1) more stage rest
        | 0 => withTable stage word rest ++ normalWords (position + 1) 0 (stage.afterKept word) rest

def normalizeField (statement : Text) : Text :=
  Text.join [' '] (normalWords 0 0 .path (statement.splitOn ' '))

end Script

end SurrealZod
