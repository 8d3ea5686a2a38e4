import SurrealZod.Text.Basic

/-!
# Field paths

A field's name is a path into the record: segments separated by dots, each a field name or a mark of a list's
elements. The element marks are `*`, `[]`, `[*]` and an index in brackets, alone or appended to a segment. A record is
an object, so a path begins with a field name.
-/

namespace SurrealZod

inductive Step where
  | field (name : Text)
  | element
  deriving DecidableEq

namespace FieldPath

/-- Where a reader of index marks stands: between two marks, or inside one after nothing, a star or a digit. -/
inductive MarkState where
  | between
  | opened
  | star
  | index
  deriving DecidableEq

/-- The number of index marks that a text consists of, if it consists of nothing else. -/
def countMarks : MarkState → Text → Option Nat
  | .between, [] => some 0
  | .between, '[' :: rest => countMarks .opened rest
  | .opened, '*' :: rest => countMarks .star rest
  | .opened, ']' :: rest | .star, ']' :: rest | .index, ']' :: rest => (countMarks .between rest).map (· + 1)
  | .opened, c :: rest | .index, c :: rest => if c.isDigit then countMarks .index rest else none
  | _, _ => none

/-- A segment as a name and the number of index marks behind it. -/
def splitMarks : Text → Text × Nat
  | [] => ([], 0)
  | c :: rest =>
    match countMarks .between (c :: rest) with
    | some marks => ([], marks)
    | none => (c :: (splitMarks rest).1, (splitMarks rest).2)

/-- The steps of a trimmed segment; an empty one has none. -/
def segmentSteps? (segment : Text) : Option (List Step) :=
  match splitMarks segment with
  | ([], 0) => none
  | ([], marks) => some (List.replicate marks .element)
  | (['*'], marks) => some (.element :: List.replicate marks .element)
  | (name, marks) => some (.field name :: List.replicate marks .element)

/-- The steps of all segments in order, if none is empty. -/
def allSteps? : List Text → Option (List Step)
  | [] => some []
  | segment :: rest => do
    let steps ← segmentSteps? (Text.trim segment)
    let others ← allSteps? rest
    return steps ++ others

/-- The steps of a path, if no segment is empty and the first step is a field. -/
def steps? (path : Text) : Option (List Step) :=
  match allSteps? (path.splitOn '.') with
  | some (.field name :: rest) => some (.field name :: rest)
  | _ => none

end FieldPath

end SurrealZod
