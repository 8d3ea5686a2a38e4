import SurrealZod.Text.Basic

/-!
# Entries by key

Children of an object, members of a record and names in a folder are lists of entries in the code-point order of their
keys, each key once. Setting a key keeps that order, and what is found under a key is what was set under it last, unless
the key was erased since.
-/

namespace SurrealZod.Text

variable {α : Type}

def get? (key : Text) : List (Text × α) → Option α
  | [] => none
  | (other, value) :: rest => if key = other then some value else get? key rest

/-- The entries with a value under a key: in the place of the value that was there, else in key order. -/
def put (key : Text) (value : α) : List (Text × α) → List (Text × α)
  | [] => [(key, value)]
  | (other, old) :: rest =>
    if key = other then (key, value) :: rest
    else if key < other then (key, value) :: (other, old) :: rest
    else (other, old) :: put key value rest

@[simp] theorem get?_put_self (key : Text) (value : α) (entries : List (Text × α)) :
    get? key (put key value entries) = some value := by
  induction entries with
  | nil => simp [put, get?]
  | cons entry rest ih => grind [put, get?]

theorem get?_put_of_ne {key other : Text} (h : other ≠ key) (value : α) (entries : List (Text × α)) :
    get? other (put key value entries) = get? other entries := by
  induction entries with
  | nil => simp [put, get?, h]
  | cons entry rest ih => grind [put, get?]

/-- The entries without those under a key. -/
def erase (key : Text) (entries : List (Text × α)) : List (Text × α) := entries.filter fun entry => entry.1 ≠ key

@[simp] theorem get?_erase_self (key : Text) (entries : List (Text × α)) : get? key (erase key entries) = none := by
  induction entries with
  | nil => rfl
  | cons entry rest ih => grind [erase, get?]

theorem get?_erase_of_ne {key other : Text} (h : other ≠ key) (entries : List (Text × α)) :
    get? other (erase key entries) = get? other entries := by
  induction entries with
  | nil => rfl
  | cons entry rest ih => grind [erase, get?]

end SurrealZod.Text
