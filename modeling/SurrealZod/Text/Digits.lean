import SurrealZod.Text.Basic

/-!
# Digits

The numbers that digits stand for, in a base of at most sixteen. Letters of both cases are digits.
-/

namespace SurrealZod

namespace Text

def digit? (base : Nat) (c : Char) : Option Nat :=
  let value :=
    if c.isDigit then c.toNat - '0'.toNat
    else if 'a' ≤ c ∧ c ≤ 'f' then c.toNat - 'a'.toNat + 10
    else if 'A' ≤ c ∧ c ≤ 'F' then c.toNat - 'A'.toNat + 10
    else base
  if value < base then some value else none

/-- The natural number of digits, of which there is at least one. -/
def natural? (base : Nat) (t : Text) : Option Nat :=
  if t.isEmpty then none else (t.mapM (digit? base)).map fun values => values.foldl (base * · + ·) 0

end Text

end SurrealZod
