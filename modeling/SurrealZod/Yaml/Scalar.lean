import SurrealZod.Text.Digits
import SurrealZod.Yaml.Character

/-!
# Scalars of YAML

A scalar may go on over several lines, and then its line breaks are folded: one alone is read as a space, and more of
them as one less. The separators of lines and paragraphs are kept. How deep the lines of a scalar are indented does not
matter to its text, only to where it ends.
-/

namespace SurrealZod

namespace Yaml

/-- A place in a text: what follows it, its line and its column. -/
structure Cursor where
  rest : Text
  line : Nat := 0
  column : Nat := 0

/-! ### Gaps -/

/-- The white space behind a word of a scalar: blanks of one line, or line breaks. The first line break is missing if it
is written as an escape. -/
inductive Gap where
  | blanks (known : Text)
  | breaks (first : Option Char) (more : Text)
  deriving DecidableEq

namespace Gap

def none : Gap := blanks []

/-- The gap with one more character. Blanks at either end of a line are dropped. -/
def add (c : Char) : Gap → Gap
  | blanks known => if isBreak c then breaks (some c) [] else blanks (known ++ [c])
  | breaks first more => breaks first (if isBreak c then more ++ [c] else more)

def isFolded : Gap → Bool
  | blanks _ => false
  | breaks .. => true

def text : Gap → Text
  | blanks known => known
  | breaks (some '\n') [] => [' ']
  | breaks (some '\n') more => more
  | breaks first more => first.toList ++ more

end Gap

/-! ### Plain scalars -/

/-- Whether a plain scalar ends in front of a text, behind a given gap. The mark of a comment needs a gap before it, and
a colon one behind it. -/
def endsPlain (inFlow : Bool) (gap : Gap) (t : Text) : Bool :=
  match t with
  | [] => true
  | c :: rest => (c = '#' && gap ≠ .none) || (c = ':' && atBlank rest) || (inFlow && isFlowMark c)

/-- Whether a text begins with a colon that a flow collection does not allow in a plain scalar. -/
def atBadColon : Text → Bool
  | ':' :: rest => atFlowMark rest || rest.head? = some '?'
  | _ => false

/-- Reads a plain scalar, of which some characters are known in reverse, with the gap behind them. Its further lines
begin at a margin or right of it, except for those in a flow collection; but no tab stands left of the margin. -/
def readPlain? (inFlow : Bool) (margin : Nat) (known : Text) (gap : Gap) (line column : Nat) :
    Text → Option (Text × Gap × Cursor)
  | [] => some (known.reverse, gap, { rest := [], line, column })
  | c :: rest =>
    if isBreak c then readPlain? inFlow margin known (gap.add c) (line + 1) 0 rest
    else if isSpace c then
      if c = '\t' ∧ gap.isFolded ∧ column < margin then none
      else readPlain? inFlow margin known (gap.add c) line (column + 1) rest
    else if endsPlain inFlow gap (c :: rest) ∨ (column = 0 ∧ atBoundary (c :: rest)) ∨
        (gap.isFolded ∧ !inFlow ∧ column < margin) then
      some (known.reverse, gap, { rest := c :: rest, line, column })
    else if inFlow ∧ atBadColon (c :: rest) then none
    else readPlain? inFlow margin (c :: (gap.text.reverse ++ known)) .none line (column + 1) rest

/-! ### Quoted scalars -/

/-- The character whose code point is written in hexadecimal digits. -/
def hexChar? (digits : Text) : Option Char := do
  let code ← Text.natural? 16 digits
  if code < 0xD800 ∨ (0xE000 ≤ code ∧ code < 0x110000) then some (Char.ofNat code) else none

/-- The characters of the escapes that are one character long. -/
def escapes : List (Char × Char) :=
  [('0', '\x00'), ('a', '\x07'), ('b', '\x08'), ('t', '\t'), ('\t', '\t'), ('n', '\n'), ('v', '\x0b'), ('f', '\x0c'),
    ('r', '\r'), ('e', '\x1b'), (' ', ' '), ('"', '"'), ('/', '/'), ('\\', '\\'), ('N', '\x85'), ('_', '\xa0'),
    ('L', '\u2028'), ('P', '\u2029')]

/-- The count of hexadecimal digits behind an escape that has any. -/
def hexEscapeLength (c : Char) : Nat := if c = 'x' then 2 else if c = 'u' then 4 else if c = 'U' then 8 else 0

/-- Reads an escape behind its backslash: its character and its length. -/
def readEscape? : Text → Option (Char × Nat)
  | [] => none
  | c :: rest =>
    match hexEscapeLength c with
    | 0 => (escapes.lookup c).map (·, 1)
    | count => if rest.length < count then none else (hexChar? (rest.take count)).map (·, count + 1)

/-- Reads a quoted scalar behind its opening quote, of which some characters are known in reverse, with the gap behind
them. A single quote is doubled in a scalar in single quotes, and a backslash begins an escape in one in double quotes.
A line must not look like the start or the end of a document. -/
def readQuoted? (quote : Char) : Nat → Text → Gap → Cursor → Option (Text × Cursor)
  | 0, _, _, _ => none
  | fuel + 1, known, gap, { rest, line, column } =>
    match rest with
    | [] => none
    | c :: more =>
      let all := gap.text.reverse ++ known
      if column = 0 ∧ atBoundary rest then none
      else if isBreak c then readQuoted? quote fuel known (gap.add c) { rest := more, line := line + 1 }
      else if isSpace c then readQuoted? quote fuel known (gap.add c) { rest := more, line, column := column + 1 }
      else if c = quote then
        if quote = '\'' ∧ more.head? = some quote then
          readQuoted? quote fuel (quote :: all) .none { rest := more.drop 1, line, column := column + 2 }
        else some (all.reverse, { rest := more, line, column := column + 1 })
      else if quote = '"' ∧ c = '\\' then
        if more.head?.any isBreak then
          readQuoted? quote fuel all (.breaks .none []) { rest := more.drop 1, line := line + 1 }
        else do
          let (char, length) ← readEscape? more
          readQuoted? quote fuel (char :: all) .none { rest := more.drop length, line, column := column + 1 + length }
      else readQuoted? quote fuel (c :: all) .none { rest := more, line, column := column + 1 }

end Yaml

end SurrealZod
