import SurrealZod.Text.Alphanumeric
import SurrealZod.Text.CaseProperty
import SurrealZod.Text.Casing

/-!
# Words of a name

Generated files and identifiers carry a table's name in camel case. A name is first cut at every character that is
neither a letter nor a number, and each piece is then cut where its letters change case: after a lower-case letter
that an upper-case one follows (`userId`), and before the last capital of a run that turns to lower case
(`HTTPServer`). Characters without case go along with the letter before them.
-/

namespace SurrealZod.Text

/-- The case of the last letter with a case in the current word. -/
inductive LetterCase where
  | none
  | lower
  | upper
  deriving DecidableEq

/-- The case of the current word after one more character. -/
def LetterCase.after (state : LetterCase) (c : Char) : LetterCase :=
  if isLowercase c then .lower else if isUppercase c then .upper else state

/-- Cuts a piece at its changes of case. The first word of the result continues the current word. -/
def humps (state : LetterCase) : Text → List Text
  | [] => []
  | [c] => [[c]]
  | c :: next :: rest =>
    if state.after c = .lower ∧ isUppercase next then [c] :: humps .none (next :: rest)
    else if state = .upper ∧ isUppercase c ∧ isLowercase next then
      [] :: (humps .none (next :: rest)).modifyHead (c :: ·)
    else (humps (state.after c) (next :: rest)).modifyHead (c :: ·)

def nameWords (name : Text) : List Text :=
  (name.splitOnP (!isAlphanumeric ·)).flatMap (humps .none)

/-- A word in lower case; a sigma that ends it takes its final form. -/
def lowerWord : Text → Text
  | [] => []
  | [c] => if c = 'Σ' then ['ς'] else lowerChar c
  | c :: rest => lowerChar c ++ lowerWord rest

/-- A word with its first character in upper case and the others in lower case. -/
def capitalize : Text → Text
  | [] => []
  | c :: rest => upperChar c ++ lowerWord rest

/-- The name in camel case, its first word in lower case: `user_profile` becomes `userProfile`. -/
def lowerCamel (name : Text) : Text :=
  match nameWords name with
  | [] => []
  | word :: rest => lowerWord word ++ rest.flatMap capitalize

/-- The name in camel case, its first word capitalized: `user_profile` becomes `UserProfile`. -/
def upperCamel (name : Text) : Text := (nameWords name).flatMap capitalize

end SurrealZod.Text
