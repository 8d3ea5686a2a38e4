import SurrealZod.Yaml.Character
import SurrealZod.Yaml.PlainValue

/-!
# Writing YAML scalars

A text is written plainly where that reads back as the same text. Otherwise it stands in single quotes, or, if it holds
characters that only an escape can write, in double quotes.
-/

namespace SurrealZod

namespace Yaml

def isPrintable (c : Char) : Bool :=
  let code := c.toNat
  code = 10 || (0x20 ≤ code && code ≤ 0x7E) || (0xA0 ≤ code && code ≤ 0xFFFD && code ≠ 0xFEFF) || 0x10000 ≤ code

/-- Whether a character is a blank, a line break, or ends the text. -/
def endsWord (c : Option Char) : Bool :=
  match c with
  | none => true
  | some c =>
    c = ' ' || c = '\t' || c = '\r' || c = '\n' || c = '\x85' || c = '\u2028' || c = '\u2029' || c = '\x00'

/-- Whether a text, by its first characters, cannot stand plainly in a block. -/
def startsBadly (text : Text) : Bool :=
  text.take 3 = ['-', '-', '-'] || text.take 3 = ['.', '.', '.'] ||
    match text with
    | [] => false
    | c :: rest => isIndicator c || ((c = '?' || c = ':' || c = '-') && endsWord rest.head?)

/-- Whether a text holds a colon that ends a word or a hash that begins one, behind a given character. -/
def holdsMark (before : Char) : Text → Bool
  | [] => false
  | c :: rest =>
    (c = ':' && endsWord rest.head?) || (c = '#' && endsWord (some before)) || holdsMark c rest

/-- Whether a text can be written plainly, as far as its form goes. -/
def canBePlain (text : Text) : Bool :=
  text.head? ≠ some ' ' && text.getLast? ≠ some ' ' && !startsBadly text &&
    match text with
    | [] => true
    | first :: rest => !holdsMark first rest

/-- A digit of a hexadecimal number, in upper case. -/
def hexDigit (n : Nat) : Char := (Nat.digitChar n).toUpper

/-- The last digits of a number in hexadecimal notation. -/
def hexDigits (number : Nat) : Nat → Text
  | 0 => []
  | count + 1 => hexDigits (number / 16) count ++ [hexDigit (number % 16)]

def shortEscapes : List (Char × Char) :=
  [('\x00', '0'), ('\x07', 'a'), ('\x08', 'b'), ('\t', 't'), ('\n', 'n'), ('\x0b', 'v'), ('\x0c', 'f'), ('\r', 'r'),
    ('\x1b', 'e'), ('"', '"'), ('\\', '\\'), ('\x85', 'N'), ('\u2028', 'L'), ('\u2029', 'P')]

def escaped (c : Char) : Text :=
  match shortEscapes.lookup c with
  | some short => ['\\', short]
  | none =>
    if isPrintable c then [c]
    else if c.toNat ≤ 0xFF then ['\\', 'x'] ++ hexDigits c.toNat 2
    else ['\\', 'u'] ++ hexDigits c.toNat 4

def scalar (text : Text) : Text :=
  if !text.all isPrintable then '"' :: text.flatMap escaped ++ ['"']
  else if PlainValue.isOther text ∨ !canBePlain text then
    '\'' :: text.flatMap (fun c => if c = '\'' then ['\'', '\''] else [c]) ++ ['\'']
  else text

end Yaml

end SurrealZod
