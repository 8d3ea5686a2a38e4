import SurrealZod.Decimal.Binary64
import SurrealZod.Text.Digits

/-!
# Values of plain scalars

A plain scalar stands for nothing, for a truth value, for a number or for itself. Numbers are integers in four bases and
decimal numbers that are not too large, and digits behind a zero count as a number, too.
-/

namespace SurrealZod

namespace PlainValue

def nullWords : List Text := ["", "~", "null", "Null", "NULL"]

/-- The words for infinity, which may have a sign. -/
def infinityWords : List Text := [".inf", ".Inf", ".INF"]

def notNumberWords : List Text := [".nan", ".NaN", ".NAN"]

def flag? (t : Text) : Option Bool :=
  if t = "true" ∨ t = "True" ∨ t = "TRUE" then some true
  else if t = "false" ∨ t = "False" ∨ t = "FALSE" then some false
  else none

/-! ### Numbers -/

/-- Whether a text has a minus sign, and the text without the sign that it may have. -/
def splitSign : Text → Bool × Text
  | '-' :: rest => (true, rest)
  | '+' :: rest => (false, rest)
  | t => (false, t)

/-- The bases of integers by the letter behind their zero. -/
def bases : List (Char × Nat) := [('x', 16), ('o', 8), ('b', 2)]

/-- Whether a text is an integer in a base that it tells, with a sign or none. An integer has at most 128 bits. -/
def isBasedInteger (t : Text) : Bool :=
  let (negative, rest) := splitSign t
  match rest with
  | '0' :: letter :: digits =>
    (bases.lookup letter).any fun base =>
      (Text.natural? base digits).any fun value =>
        if negative then value ≤ Binary64.twoTo 127 else value < Binary64.twoTo 128
  | _ => false

/-- The power of ten that a text tells, which is empty or begins with a letter E. -/
def power? : Text → Option Int
  | [] => some 0
  | c :: rest =>
    if c = 'e' ∨ c = 'E' then
      let (negative, digits) := splitSign rest
      (Text.natural? 10 digits).map fun value => if negative then -(value : Int) else value
    else none

/-- Whether a text is a decimal number without a sign that is not too large: digits, among which there may be a point,
and a power of ten if there is one. -/
def isDecimal (t : Text) : Bool :=
  let whole := t.takeWhile Char.isDigit
  let (fraction, behind) :=
    match t.dropWhile Char.isDigit with
    | '.' :: rest => (rest.takeWhile Char.isDigit, rest.dropWhile Char.isDigit)
    | rest => ([], rest)
  match Text.natural? 10 (whole ++ fraction), power? behind with
  | some significand, some power => Binary64.hasNearest significand (power - fraction.length)
  | _, _ => false

/-- Whether a text is digits behind a zero, with a sign or none. -/
def isPaddedDigits (t : Text) : Bool :=
  match (splitSign t).2 with
  | '0' :: digit :: digits => (digit :: digits).all Char.isDigit
  | _ => false

def isNumber (t : Text) : Bool :=
  let unsigned := (splitSign t).2
  isBasedInteger t || isPaddedDigits t || isDecimal unsigned || unsigned ∈ infinityWords || t ∈ notNumberWords

/-- Whether a plain scalar stands for something else than itself. -/
def isOther (t : Text) : Bool := t ∈ nullWords || (flag? t).isSome || isNumber t

end PlainValue

end SurrealZod
