/-!
# Runs of code points

Properties and case mappings hold on long stretches of the code space, and in blocks of paired letters on every
second code point, so a table of them is a list of runs with a step.
-/

namespace SurrealZod.Text

/-- Every `step`-th code point from `first` to `last`. -/
structure CodeRun where
  first : Nat
  last : Nat
  step : Nat

def CodeRun.has (run : CodeRun) (code : Nat) : Bool :=
  run.first ≤ code && code ≤ run.last && (code - run.first) % run.step == 0

end SurrealZod.Text
