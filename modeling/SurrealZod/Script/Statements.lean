import SurrealZod.Text.Basic

/-!
# Statements of a schema text

A schema text is split at every semicolon, also at one inside a string literal, after its comment lines are dropped. A
comment starts with `--`, `//` or `#` as the first characters of a line other than white space, and runs to the line's
end; a mark behind code is code. Each statement is then written on one line with single spaces.
-/

namespace SurrealZod

namespace Script

/-- Where a reader of comments stands: behind the white space read since a line's start, in code or in a comment. -/
inductive LineState where
  | start (blanks : Text)
  | code
  | comment

def startsComment : Text → Bool
  | '-' :: '-' :: _ => true
  | '/' :: '/' :: _ => true
  | '#' :: _ => true
  | _ => false

/-- The text without its comments, each taken out together with all white space from a line's start up to it. -/
def dropComments : LineState → Text → Text
  | .start blanks, [] => blanks
  | .code, [] => []
  | .comment, [] => []
  | .start blanks, c :: rest =>
    if Text.isBlank c then dropComments (.start (blanks ++ [c])) rest
    else if startsComment (c :: rest) then dropComments .comment rest
    else blanks ++ c :: dropComments .code rest
  | .code, c :: rest => c :: dropComments (if c = '\n' then .start [] else .code) rest
  | .comment, c :: rest =>
    if c = '\n' then c :: dropComments (.start []) rest else dropComments .comment rest

/-- The statements of a schema text, each on one line with single spaces, none of them empty. -/
def statements (text : Text) : List Text :=
  (((dropComments (.start []) text).splitOn ';').map Text.squeeze).filter (!·.isEmpty)

end Script

end SurrealZod
