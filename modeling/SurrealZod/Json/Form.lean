import SurrealZod.Json.Value
import SurrealZod.Text.Digits

/-!
# JSON texts

A JSON text is read in two steps: the grammar gives its form, in which numerals and string escapes stand as written,
and the form gives its value. A form without a value holds a number that is too large, half of a surrogate pair, or
arrays and objects nested too deeply. A reader that passes over a part of a text needs no more than its form.
-/

namespace SurrealZod

/-- A part of a string as it is written: a character, or a code unit in hexadecimal digits. -/
inductive StringPart where
  | char (c : Char)
  | unit (code : Nat)
  deriving DecidableEq

namespace StringPart

/-- The text that the parts stand for. Code units of surrogates count only in pairs. -/
def decode? : List StringPart → Option Text
  | [] => some []
  | char c :: rest => (decode? rest).map (c :: ·)
  | unit high :: unit low :: rest =>
    if 0xD800 ≤ high ∧ high < 0xDC00 then
      if 0xDC00 ≤ low ∧ low < 0xE000 then
        (decode? rest).map (Char.ofNat (0x10000 + (high - 0xD800) * 0x400 + (low - 0xDC00)) :: ·)
      else none
    else if 0xDC00 ≤ high ∧ high < 0xE000 then none
    else (decode? (unit low :: rest)).map (Char.ofNat high :: ·)
  | unit code :: rest =>
    if 0xD800 ≤ code ∧ code < 0xE000 then none else (decode? rest).map (Char.ofNat code :: ·)

end StringPart

inductive JsonForm where
  | null
  | boolean (value : Bool)
  | number (numeral : Numeral)
  | string (parts : List StringPart)
  | array (items : List JsonForm)
  | object (members : List (List StringPart × JsonForm))

namespace JsonForm

/-! ### From the form to the value -/

/-- The count of arrays and objects around each other that a value may have. -/
def maxDepth : Nat := 127

mutual

/-- The value of a form with at most `depth` arrays and objects around each other. -/
def value? (depth : Nat) : JsonForm → Option JsonValue
  | null => some .null
  | boolean value => some (.boolean value)
  | number numeral => numeral.number?.map .number
  | string parts => (StringPart.decode? parts).map .string
  | array items =>
    match depth with
    | 0 => none
    | depth + 1 => (itemValues? depth items).map .array
  | object members =>
    match depth with
    | 0 => none
    | depth + 1 => (memberValues? depth [] members).map .object

def itemValues? (depth : Nat) : List JsonForm → Option (List JsonValue)
  | [] => some []
  | item :: rest => do return (← value? depth item) :: (← itemValues? depth rest)

/-- The members of an object behind those already read, by key. The last member of a key counts. -/
def memberValues? (depth : Nat) (known : List (Text × JsonValue)) :
    List (List StringPart × JsonForm) → Option (List (Text × JsonValue))
  | [] => some known
  | (key, form) :: rest => do memberValues? depth (Text.put (← StringPart.decode? key) (← value? depth form) known) rest

end

/-! ### From the text to the form -/

/-- The text without the white space it begins with. -/
def skipBlank (t : Text) : Text := t.dropWhile fun c => c = ' ' ∨ c = '\n' ∨ c = '\t' ∨ c = '\r'

def shortEscape? (c : Char) : Option Char :=
  [('"', '"'), ('\\', '\\'), ('/', '/'), ('b', '\x08'), ('f', '\x0c'), ('n', '\n'), ('r', '\r'), ('t', '\t')].lookup c

/-- Reads a string behind its opening quote: its parts, and the text behind its closing quote. -/
def readString : Text → Option (List StringPart × Text)
  | [] => none
  | '"' :: rest => some ([], rest)
  | '\\' :: 'u' :: a :: b :: c :: d :: rest => do
    let code ← Text.natural? 16 [a, b, c, d]
    let (parts, behind) ← readString rest
    return (.unit code :: parts, behind)
  | '\\' :: c :: rest => do
    let char ← shortEscape? c
    let (parts, behind) ← readString rest
    return (.char char :: parts, behind)
  | c :: rest =>
    if c = '\\' ∨ c.toNat < 0x20 then none
    else (readString rest).map fun (parts, behind) => (.char c :: parts, behind)

def readDigits (t : Text) : Text × Text := (t.takeWhile Char.isDigit, t.dropWhile Char.isDigit)

/-- Reads the exponent of a numeral, if there is one. -/
def readExponent : Text → Option (Option Exponent × Text)
  | 'e' :: rest | 'E' :: rest =>
    let (negative, unsigned) :=
      match rest with
      | '-' :: more => (true, more)
      | '+' :: more => (false, more)
      | _ => (false, rest)
    let (digits, behind) := readDigits unsigned
    if digits = [] then none else some (some { negative, digits }, behind)
  | t => some (none, t)

/-- Reads the fraction of a numeral, if there is one. -/
def readFraction : Text → Option (Option Text × Text)
  | '.' :: rest =>
    let (digits, behind) := readDigits rest
    if digits = [] then none else some (some digits, behind)
  | t => some (none, t)

/-- Reads a numeral. A zero before the point stands alone. -/
def readNumeral (t : Text) : Option (Numeral × Text) := do
  let (negative, unsigned) :=
    match t with
    | '-' :: rest => (true, rest)
    | _ => (false, t)
  let (whole, rest) := readDigits unsigned
  if whole = [] ∨ (whole.head? = some '0' ∧ whole ≠ ['0']) then none
  else
    let (fraction, rest) ← readFraction rest
    let (exponent, rest) ← readExponent rest
    return ({ negative, whole, fraction, exponent }, rest)

mutual

/-- Reads a value: its form, and the text behind it. Each step of the reader takes one unit of fuel. -/
def readValue : Nat → Text → Option (JsonForm × Text)
  | 0, _ => none
  | fuel + 1, t =>
    match skipBlank t with
    | 'n' :: 'u' :: 'l' :: 'l' :: rest => some (null, rest)
    | 't' :: 'r' :: 'u' :: 'e' :: rest => some (boolean true, rest)
    | 'f' :: 'a' :: 'l' :: 's' :: 'e' :: rest => some (boolean false, rest)
    | '"' :: rest => (readString rest).map fun (parts, behind) => (string parts, behind)
    | '[' :: rest =>
      match skipBlank rest with
      | ']' :: behind => some (array [], behind)
      | items => (readItems fuel items).map fun (forms, behind) => (array forms, behind)
    | '{' :: rest =>
      match skipBlank rest with
      | '}' :: behind => some (object [], behind)
      | members => (readMembers fuel members).map fun (forms, behind) => (object forms, behind)
    | rest => (readNumeral rest).map fun (numeral, behind) => (number numeral, behind)

/-- Reads the items of an array up to its closing bracket. -/
def readItems : Nat → Text → Option (List JsonForm × Text)
  | 0, _ => none
  | fuel + 1, t => do
    let (form, rest) ← readValue fuel t
    match skipBlank rest with
    | ']' :: behind => some ([form], behind)
    | ',' :: more =>
      let (forms, behind) ← readItems fuel more
      return (form :: forms, behind)
    | _ => none

/-- Reads the members of an object up to its closing brace. -/
def readMembers : Nat → Text → Option (List (List StringPart × JsonForm) × Text)
  | 0, _ => none
  | fuel + 1, t =>
    match skipBlank t with
    | '"' :: quoted => do
      let (key, rest) ← readString quoted
      match skipBlank rest with
      | ':' :: value =>
        let (form, rest) ← readValue fuel value
        match skipBlank rest with
        | '}' :: behind => some ([(key, form)], behind)
        | ',' :: more =>
          let (forms, behind) ← readMembers fuel more
          return ((key, form) :: forms, behind)
        | _ => none
      | _ => none
    | _ => none

end

/-- The form of a JSON text. A step of the reader that reads no character is followed by one that does, so twice the
text's length is fuel enough. -/
def ofText? (t : Text) : Option JsonForm :=
  match readValue (2 * t.length + 2) t with
  | some (form, rest) => if skipBlank rest = [] then some form else none
  | none => none

end JsonForm

def JsonValue.ofText? (t : Text) : Option JsonValue := (JsonForm.ofText? t).bind (·.value? JsonForm.maxDepth)

end SurrealZod
