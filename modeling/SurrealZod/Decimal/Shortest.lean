import SurrealZod.Decimal.Binary64
import SurrealZod.Text.Basic

/-!
# Shortest decimal digits

The decimal form of a binary number has the fewest digits that read back as the number, and of those digits the ones
nearest to it. The reals that read back form an interval around the number, which holds its ends exactly if the
mantissa is even. On the grid of decimals with a given count of digits only the two neighbours of the number need a
test, and seventeen digits always suffice.
-/

namespace SurrealZod

namespace Binary64

/-- The number as a fraction of a quarter of its last place, which is the unit that the ends of its interval need. -/
def quarters (x : Binary64) : Nat × Nat := scaleRatio 1 1 (2 - x.exponent)

/-- The distance from the number to the lower end of its interval, in quarters of the last place. It is halved at a
power of two, below which the numbers lie closer. -/
def lowerGap (x : Binary64) : Nat :=
  if x.mantissa = twoTo 52 ∧ minExponent < x.exponent then 1 else 2

/-- Whether the number is at least `10 ^ power`. -/
def reachesPowerOfTen (x : Binary64) (power : Int) : Bool :=
  if power < 0 then x.ratio.2 ≤ x.ratio.1 * tenTo (-power).toNat
  else x.ratio.2 * tenTo power.toNat ≤ x.ratio.1

/-- The largest power of ten that does not exceed a number other than zero. It is at most three above an estimate from
the number's length in bits. -/
def decimalExponent (x : Binary64) : Int :=
  let estimate := (x.mantissa.log2 + x.exponent) * 30103 / 100000 - 1
  (([3, 2, 1].map (estimate + ·)).find? x.reachesPowerOfTen).getD estimate

/-- A neighbour of the number on the grid of the multiples of `10 ^ power` that reads back as the number, if there is
one: the nearer of the two, and the even one at a tie. -/
def neighbour? (x : Binary64) (power : Int) : Option Nat :=
  let unit := x.quarters
  let step := if power < 0 then (unit.1 * tenTo (-power).toNat, unit.2) else (unit.1, unit.2 * tenTo power.toNat)
  let value := 4 * x.mantissa * step.1
  let low := (4 * x.mantissa - x.lowerGap) * step.1
  let high := (4 * x.mantissa + 2) * step.1
  let readsBack (n : Nat) : Bool :=
    if x.mantissa % 2 = 0 then low ≤ n * step.2 && n * step.2 ≤ high
    else low < n * step.2 && n * step.2 < high
  let below := value / step.2
  let above := below + 1
  match readsBack below, readsBack above with
  | true, true =>
    let middle := (2 * below + 1) * step.2
    if 2 * value < middle ∨ (2 * value = middle ∧ below % 2 = 0) then some below else some above
  | true, false => some below
  | false, true => some above
  | false, false => none

/-- The digits and the power of ten of the shortest decimal that reads back as the number. -/
def shortest (x : Binary64) : Nat × Int :=
  let top := x.decimalExponent
  let grids := (List.range 17).map fun (more : Nat) => top - more
  ((grids.findSome? fun power => (x.neighbour? power).map (·, power))).getD (0, 0)

end Binary64

end SurrealZod
