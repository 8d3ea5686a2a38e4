import SurrealZod.Text.Basic

/-!
# Characters of YAML

What single characters mean to a reader of YAML, and what a place in a text shows of the characters that follow it. Once
the line breaks of a text are normalized, every line break is one character.
-/

namespace SurrealZod

namespace Yaml

/-- Whether a character may stand in a document as it is. -/
def isAllowed (c : Char) : Bool :=
  let code := c.toNat
  code = 9 || code = 10 || code = 13 || (0x20 ≤ code && code ≤ 0x7E) || code = 0x85 || (0xA0 ≤ code && code ≤ 0xFFFD) ||
    0x10000 ≤ code

/-- The text with one line feed for every line break, except for the line and paragraph separators, which stay. -/
def normalizeBreaks : Text → Text
  | [] => []
  | '\r' :: '\n' :: rest => '\n' :: normalizeBreaks rest
  | c :: rest => (if c = '\r' ∨ c = '\x85' then '\n' else c) :: normalizeBreaks rest

def isSpace (c : Char) : Bool := c = ' ' || c = '\t'

def isBreak (c : Char) : Bool := c = '\n' || c = '\u2028' || c = '\u2029'

/-- Whether a text is at its end, or begins with white space or a line break. -/
def atBlank : Text → Bool
  | [] => true
  | c :: _ => isSpace c || isBreak c

def isFlowMark (c : Char) : Bool := c = ',' || c = '[' || c = ']' || c = '{' || c = '}'

/-- Whether a text begins with a character that delimits flow collections. -/
def atFlowMark (t : Text) : Bool := t.head?.any isFlowMark

def isIndicator (c : Char) : Bool :=
  isFlowMark c || c = '#' || c = '&' || c = '*' || c = '!' || c = '|' || c = '>' || c = '\'' || c = '"' || c = '%' ||
    c = '@' || c = '`'

/-- Whether a text begins with three given characters that stand alone. -/
def atMarker (mark : Char) (t : Text) : Bool := t.take 3 = [mark, mark, mark] && atBlank (t.drop 3)

/-- Whether a text begins with the start or the end of a document. -/
def atBoundary (t : Text) : Bool := atMarker '-' t || atMarker '.' t

end Yaml

end SurrealZod
