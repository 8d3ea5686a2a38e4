/-!
# Binary numbers of double precision

A finite number of double precision without its sign is a mantissa below `2 ^ 53` times a power of two. Arithmetic is
exact on fractions of natural numbers and rounds once, to the nearest number of double precision and at a tie to the
even mantissa, so its results are those of the hardware.
-/

namespace SurrealZod

/-- The number `mantissa * 2 ^ exponent`. -/
structure Binary64 where
  mantissa : Nat
  exponent : Int
  deriving DecidableEq

namespace Binary64

def twoTo (power : Nat) : Nat := Nat.pow 2 power

def tenTo (power : Nat) : Nat := Nat.pow 10 power

def minExponent : Int := -1074

def maxExponent : Int := 971

def zero : Binary64 := { mantissa := 0, exponent := minExponent }

/-- The natural number nearest to a fraction, the even one at a tie. -/
def roundQuotient (numerator denominator : Nat) : Nat :=
  let quotient := numerator / denominator
  let remainder := numerator % denominator
  if denominator < 2 * remainder ∨ (denominator = 2 * remainder ∧ quotient % 2 = 1) then quotient + 1 else quotient

def scaleRatio (numerator denominator : Nat) (exponent : Int) : Nat × Nat :=
  if exponent < 0 then (numerator * twoTo (-exponent).toNat, denominator)
  else (numerator, denominator * twoTo exponent.toNat)

/-- The number nearest to a fraction, or `none` if it is too large. The exponent is chosen so that the mantissa has 53
bits, unless the fraction is too small for that. -/
def ofRatio? (numerator denominator : Nat) : Option Binary64 :=
  if numerator = 0 then some zero
  else
    let low : Int := (numerator.log2 : Int) - denominator.log2 - 53
    let atLow := scaleRatio numerator denominator low
    let exponent := max (if atLow.1 / atLow.2 < twoTo 53 then low else low + 1) minExponent
    let scaled := scaleRatio numerator denominator exponent
    let mantissa := roundQuotient scaled.1 scaled.2
    let rounded : Binary64 :=
      if mantissa = twoTo 53 then { mantissa := twoTo 52, exponent := exponent + 1 } else { mantissa, exponent }
    if maxExponent < rounded.exponent then none else some rounded

def ratio (x : Binary64) : Nat × Nat := scaleRatio x.mantissa 1 (-x.exponent)

/-- The number times `10 ^ power`, which is rounded itself first. -/
def mulPowerOfTen? (x : Binary64) (power : Nat) : Option Binary64 := do
  let factor ← ofRatio? (tenTo power) 1
  ofRatio? (x.ratio.1 * factor.ratio.1) (x.ratio.2 * factor.ratio.2)

/-- The number over `10 ^ power`, which is rounded itself first. -/
def divPowerOfTen? (x : Binary64) (power : Nat) : Option Binary64 := do
  let factor ← ofRatio? (tenTo power) 1
  ofRatio? (x.ratio.1 * factor.ratio.2) (x.ratio.2 * factor.ratio.1)

/-- The largest power of ten that a single multiplication or division takes. -/
def maxPowerOfTen : Nat := 308

/-- The number divided by the largest power of ten a number of times, or until it is zero. -/
def shrink? : Nat → Binary64 → Option Binary64
  | 0, x => some x
  | rounds + 1, x => if x.mantissa = 0 then some x else (x.divPowerOfTen? maxPowerOfTen).bind (shrink? rounds)

/-- The number nearest to `significand * 10 ^ power` up to the rounding of the steps, or `none` if it is too large. -/
def ofDecimal? (significand : Nat) (power : Int) : Option Binary64 := do
  let x ← ofRatio? significand 1
  if power < 0 then
    let rounds := ((-power).toNat - 1) / maxPowerOfTen
    (← shrink? rounds x).divPowerOfTen? ((-power).toNat - maxPowerOfTen * rounds)
  else if power ≤ maxPowerOfTen then x.mulPowerOfTen? power.toNat
  else if x.mantissa = 0 then return x
  else none

/-- The least number that does not round to one of double precision. -/
def firstTooLarge : Nat := twoTo 1024 - twoTo 970

/-- Whether `significand * 10 ^ power` rounds to a number of double precision. Its count of digits before the point
tells that, but for numbers that have as many as the largest one. -/
def hasNearest (significand : Nat) (power : Int) : Bool :=
  let count := (Nat.toDigits 10 significand).length + power
  if significand = 0 ∨ count ≤ maxPowerOfTen then true
  else if maxPowerOfTen + 1 < count then false
  else if power < 0 then significand < firstTooLarge * tenTo (-power).toNat
  else significand * tenTo power.toNat < firstTooLarge

end Binary64

end SurrealZod
