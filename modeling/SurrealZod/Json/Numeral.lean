import SurrealZod.Decimal.Shortest

/-!
# Numbers of JSON

A numeral is the written form of a number. It stands for an integer if it has neither a fraction nor an exponent and
fits into 64 bits, signed or unsigned, and for a number of double precision otherwise; minus zero is of the latter
kind. Of the digits only as many count as fit into 64 bits, and those left out before the point raise the power of ten.
A number is written with the fewest digits that read back: positionally and with a decimal place from `0.00001` up to
below `10 ^ 16`, else with a signed exponent.
-/

namespace SurrealZod

inductive JsonNumber where
  | integer (value : Int)
  | real (negative : Bool) (magnitude : Binary64)
  deriving DecidableEq

structure Exponent where
  negative : Bool
  digits : Text
  deriving DecidableEq

/-- A number as it is written: digits before and behind the point, and an exponent. -/
structure Numeral where
  negative : Bool
  whole : Text
  fraction : Option Text
  exponent : Option Exponent
  deriving DecidableEq

namespace Numeral

def maxWord : Nat := 0xFFFFFFFFFFFFFFFF

def maxExponent : Nat := 0x7FFFFFFF

def digitValue (c : Char) : Nat := c.toNat - '0'.toNat

def digitsValue (value : Nat) (digits : Text) : Nat := digits.foldl (fun n c => 10 * n + digitValue c) value

/-- Reads digits as long as the value fits into 64 bits: the value and the digits left over. -/
def readWord (value : Nat) : Text → Nat × Text
  | [] => (value, [])
  | c :: rest =>
    if 10 * value + digitValue c ≤ maxWord then readWord (10 * value + digitValue c) rest else (value, c :: rest)

/-- The power of ten that an exponent adds; `none` if the exponent is not read as a number. -/
def exponentValue? (exponent : Exponent) : Option Int :=
  let value := digitsValue 0 exponent.digits
  if maxExponent < value then none else some (if exponent.negative then -value else value)

/-- The magnitude of `significand * 10 ^ power`, raised by an exponent. A huge exponent makes zero of a significand, but
a huge positive one is refused unless the significand is zero. -/
def magnitude? (significand : Nat) (power : Int) : Option Exponent → Option Binary64
  | none => Binary64.ofDecimal? significand power
  | some exponent =>
    match exponentValue? exponent with
    | some more => Binary64.ofDecimal? significand (power + more)
    | none => if significand ≠ 0 ∧ !exponent.negative then none else some .zero

/-- The number that a numeral stands for, or `none` if it is too large. -/
def number? (numeral : Numeral) : Option JsonNumber :=
  let (whole, omitted) := readWord 0 numeral.whole
  match omitted, numeral.fraction, numeral.exponent with
  | [], none, none =>
    if !numeral.negative then some (.integer whole)
    else if 0 < whole ∧ whole ≤ 0x8000000000000000 then some (.integer (-whole))
    else (Binary64.ofRatio? whole 1).map (.real true)
  | _, _, _ =>
    let fraction := numeral.fraction.getD []
    let (significand, unread) := readWord whole fraction
    let power : Int := omitted.length - (fraction.length - unread.length : Nat)
    (magnitude? significand power numeral.exponent).map (.real numeral.negative)

end Numeral

namespace JsonNumber

def digits (n : Nat) : Text := Nat.toDigits 10 n

def integerText (value : Int) : Text :=
  if value < 0 then '-' :: digits value.natAbs else digits value.natAbs

/-- Digits with the decimal point behind a given count of them, filled up with zeros where the point lies outside. -/
def pointText (digits : Text) (point : Int) : Text :=
  if point ≤ 0 then "0." ++ List.replicate (-point).toNat '0' ++ digits
  else if digits.length ≤ point.toNat then digits ++ List.replicate (point.toNat - digits.length) '0' ++ ".0"
  else digits.take point.toNat ++ '.' :: digits.drop point.toNat

/-- Digits with the decimal point behind the first of them, and an exponent with its sign. -/
def exponentText (digits : Text) (exponent : Int) : Text :=
  digits.take 1 ++ (if digits.length ≤ 1 then [] else '.' :: digits.drop 1) ++
    (if exponent < 0 then "e-" else "e+") ++ JsonNumber.digits exponent.natAbs

def magnitudeText (x : Binary64) : Text :=
  if x.mantissa = 0 then "0.0"
  else
    let (significand, power) := x.shortest
    let all := digits significand
    let exponent : Int := power + all.length - 1
    let significant := (all.reverse.dropWhile (· = '0')).reverse
    if -5 ≤ exponent ∧ exponent < 16 then pointText significant (exponent + 1)
    else exponentText significant exponent

def text : JsonNumber → Text
  | integer value => integerText value
  | real negative magnitude => if negative then '-' :: magnitudeText magnitude else magnitudeText magnitude

end JsonNumber

end SurrealZod
