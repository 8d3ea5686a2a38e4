import SurrealZod.Error
import SurrealZod.Text.Casing

/-!
# Slots and keywords

A field statement is a sequence of words, some of which are keywords. A keyword either opens one of the seven slots
of a field definition, into which the plain words after it go, or is neutral and changes nothing.
-/

namespace SurrealZod

/-- A part of a field definition that words of a statement go into. -/
inductive Slot where
  | name
  | table
  | fieldType
  | value
  | defaultValue
  | assert
  | inside
  deriving DecidableEq

namespace Slot

/-- The optional clauses, in the order in which they are written. -/
def clauses : List Slot := [fieldType, value, defaultValue, assert, inside]

def keyword : Slot → Text
  | name => "FIELD"
  | table => "TABLE"
  | fieldType => "TYPE"
  | value => "VALUE"
  | defaultValue => "DEFAULT"
  | assert => "ASSERT"
  | inside => "INSIDE"

def key : Slot → Text
  | name => "name"
  | table => "table"
  | fieldType => "fieldType"
  | value => "value"
  | defaultValue => "defaultValue"
  | assert => "assert"
  | inside => "inside"

/-- All slots, those that every definition has first. -/
def all : List Slot := name :: table :: clauses

def ofKey (key : Text) : Except Error Slot :=
  match all.find? (·.key = key) with
  | some slot => .ok slot
  | none => .error (.unknownSlot key)

theorem mem_all (slot : Slot) : slot ∈ all := by cases slot <;> decide

theorem ofKey_key (slot : Slot) : ofKey slot.key = .ok slot := by cases slot <;> rfl

end Slot

inductive WordClass where
  /-- A keyword that opens a slot. -/
  | opens (slot : Slot)
  /-- A keyword that carries no text and leaves the open slot as it is. -/
  | neutral
  /-- Plain text. -/
  | plain
  deriving DecidableEq

/-- The class of a word. A keyword is recognized in any letter case. -/
def WordClass.of (word : Text) : WordClass :=
  let capitals := Text.upper word
  if capitals = "DEFINE" ∨ capitals = "ON" then .neutral
  else
    match Slot.all.find? (·.keyword = capitals) with
    | some slot => .opens slot
    | none => .plain

end SurrealZod
