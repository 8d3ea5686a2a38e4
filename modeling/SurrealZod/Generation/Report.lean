import SurrealZod.Error

/-!
# Reports

What came of each table in a run, in the order of the tables.
-/

namespace SurrealZod

structure TableOutcome where
  table : Text
  /-- Why the table failed, if it did. -/
  failure : Option Error := none
  deriving DecidableEq

structure Report where
  outcomes : List TableOutcome
  deriving DecidableEq

namespace Report

/-- The tables whose files are written. -/
def generated (report : Report) : List Text :=
  report.outcomes.filterMap fun outcome => if outcome.failure.isNone then some outcome.table else none

/-- The tables that failed, and why. -/
def failed (report : Report) : List (Text × Error) :=
  report.outcomes.filterMap fun outcome => outcome.failure.map (outcome.table, ·)

def isOk (report : Report) : Bool := report.failed.isEmpty

end Report

end SurrealZod
