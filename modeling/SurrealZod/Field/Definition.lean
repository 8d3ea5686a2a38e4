import SurrealZod.Field.Slot

/-!
# Field definitions

A field definition holds the clauses of one field statement. The name and the table are always there, empty when the
statement never named them; every other clause is absent unless its keyword brought it, and an empty clause differs
from an absent one.
-/

namespace SurrealZod

structure FieldDefinition where
  name : Text := []
  table : Text := []
  fieldType : Option Text := none
  value : Option Text := none
  defaultValue : Option Text := none
  assert : Option Text := none
  inside : Option Text := none
  deriving DecidableEq

namespace FieldDefinition

/-- The text of a slot, if it is there. -/
def get? (definition : FieldDefinition) : Slot → Option Text
  | .name => some definition.name
  | .table => some definition.table
  | .fieldType => definition.fieldType
  | .value => definition.value
  | .defaultValue => definition.defaultValue
  | .assert => definition.assert
  | .inside => definition.inside

def set (definition : FieldDefinition) (slot : Slot) (text : Text) : FieldDefinition :=
  match slot with
  | .name => { definition with name := text }
  | .table => { definition with table := text }
  | .fieldType => { definition with fieldType := some text }
  | .value => { definition with value := some text }
  | .defaultValue => { definition with defaultValue := some text }
  | .assert => { definition with assert := some text }
  | .inside => { definition with inside := some text }

@[simp] theorem get?_set_self (definition : FieldDefinition) (slot : Slot) (text : Text) :
    (definition.set slot text).get? slot = some text := by
  cases slot <;> rfl

@[simp] theorem get?_set_of_ne (definition : FieldDefinition) {slot other : Slot} (text : Text)
    (h : other ≠ slot) : (definition.set slot text).get? other = definition.get? other := by
  cases slot <;> cases other <;> simp_all [get?, set]

theorem ext_get? {a b : FieldDefinition} (h : ∀ slot, a.get? slot = b.get? slot) : a = b := by
  cases a
  cases b
  have hn := h .name
  have ht := h .table
  have hf := h .fieldType
  have hv := h .value
  have hd := h .defaultValue
  have ha := h .assert
  have hi := h .inside
  simp_all [get?]

/-- Appends a word to a slot. A space joins it to the text before, and the outer white space of the result is
dropped, so runs of spaces collapse and a repeated keyword adds to the same slot. -/
def append (definition : FieldDefinition) (slot : Slot) (word : Text) : FieldDefinition :=
  definition.set slot (Text.trim ((definition.get? slot).getD [] ++ ' ' :: word))

/-- A clause as it is written: its keyword, and its text unless it is empty. -/
def clauseText (definition : FieldDefinition) (slot : Slot) : Text :=
  match definition.get? slot with
  | none => []
  | some text => ' ' :: slot.keyword ++ if text.isEmpty then [] else ' ' :: text

def toStatement (definition : FieldDefinition) : Text :=
  "DEFINE FIELD " ++ definition.name ++ " ON TABLE " ++ definition.table ++
    Slot.clauses.flatMap definition.clauseText

/-- Reads words with a slot open. Words that come before the first keyword go nowhere. -/
def readWords (slot : Option Slot) (definition : FieldDefinition) : List Text → FieldDefinition
  | [] => definition
  | word :: rest =>
    match WordClass.of word with
    | .opens opened => readWords (some opened) definition rest
    | .neutral => readWords slot definition rest
    | .plain =>
      match slot with
      | some opened => readWords slot (definition.append opened word) rest
      | none => readWords slot definition rest

/-- The words of a statement: what its single spaces separate, without outer white space and one final semicolon. -/
def statementWords (statement : Text) : List Text :=
  let trimmed := Text.trim statement
  ((Text.dropLast? ';' trimmed).getD trimmed).splitOn ' '

def ofStatement (statement : Text) : FieldDefinition := readWords none {} (statementWords statement)

end FieldDefinition

end SurrealZod
