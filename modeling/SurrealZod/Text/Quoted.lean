import SurrealZod.Text.Basic

/-!
# String literals

Every text that reaches the generated code stands there as a double-quoted literal. Quotes, backslashes and control
characters are escaped, with the short escapes where they exist and four lower-case hexadecimal digits otherwise;
all other characters stand for themselves.
-/

namespace SurrealZod.Text

/-- A character as it is written inside a string literal. -/
def escapeChar (c : Char) : Text :=
  if c = '"' then ['\\', '"']
  else if c = '\\' then ['\\', '\\']
  else if c = '\n' then ['\\', 'n']
  else if c = '\r' then ['\\', 'r']
  else if c = '\t' then ['\\', 't']
  else if c = '\x08' then ['\\', 'b']
  else if c = '\x0c' then ['\\', 'f']
  else if c.toNat < 0x20 then
    ['\\', 'u', '0', '0', Nat.digitChar (c.toNat / 16), Nat.digitChar (c.toNat % 16)]
  else [c]

def quoted (t : Text) : Text := '"' :: t.flatMap escapeChar ++ ['"']

end SurrealZod.Text
