import SurrealZod.Text.Keyed
import SurrealZod.Text.Utf8

/-!
# Stores

A store is what a disk holds: folders by name from the root down, and files in them. All that a run can see of it is what
stands at each location, and `kind?_put` and `kind?_erase` say how that changes: at one location, and at those below it.
-/

namespace SurrealZod

/-- The content of a file: a text, or bytes that are none. -/
inductive Content where
  | text (text : Text)
  | binary (bytes : List UInt8)
  deriving DecidableEq

namespace Content

def ofBytes (bytes : List UInt8) : Content :=
  match Utf8.decode? bytes with
  | some decoded => .text decoded
  | none => .binary bytes

def shown : Content → Text
  | .text known => known
  | .binary bytes => Utf8.decodeLossy bytes

end Content

/-- The names that lead to a place in a store, from the root down. -/
abbrev Location := List Text

inductive Kind where
  | folder
  | file (content : Content)
  deriving DecidableEq

inductive Entry where
  | file (content : Content)
  | folder (entries : List (Text × Entry))

namespace Entry

/-- What an entry is, without what is in it. -/
def kind : Entry → Kind
  | file content => .file content
  | folder _ => .folder

/-- The entry of a kind: a file, or a folder with nothing in it. -/
def ofKind : Kind → Entry
  | .file content => .file content
  | .folder => .folder []

@[simp] theorem kind_ofKind (kind : Kind) : (ofKind kind).kind = kind := by cases kind <;> rfl

def kind? : Location → Entry → Option Kind
  | [], entry => some entry.kind
  | name :: rest, folder entries => (Text.get? name entries).bind (kind? rest)
  | _ :: _, file _ => none

@[simp] theorem kind?_cons_ofKind (name : Text) (rest : Location) (kind : Kind) :
    kind? (name :: rest) (ofKind kind) = none := by
  cases kind <;> rfl

/-- The entry with another one at a location below it. Nothing changes if a file is in the way. -/
def put (new : Entry) : Location → Entry → Entry
  | [name], folder entries => folder (Text.put name new entries)
  | name :: rest, folder entries =>
    folder (Text.put name (put new rest ((Text.get? name entries).getD (folder []))) entries)
  | _, entry => entry

/-- The entry without what stands at a location below it. -/
def erase : Location → Entry → Entry
  | [name], folder entries => folder (Text.erase name entries)
  | name :: rest, folder entries =>
    match Text.get? name entries with
    | some entry => folder (Text.put name (erase rest entry) entries)
    | none => folder entries
  | _, entry => entry

/-! ### What stands where -/

theorem kind?_put (new : Kind) {location : Location} (hne : location ≠ []) {entry : Entry}
    (h : entry.kind? location.dropLast = some .folder) (other : Location) :
    (put (ofKind new) location entry).kind? other =
      if other = location then some new else if location <+: other then none else entry.kind? other := by
  induction location generalizing entry other with
  | nil => exact absurd rfl hne
  | cons name rest ih =>
    cases entry with
    | file content => cases rest <;> simp [kind?, kind] at h
    | folder entries =>
      cases other with
      | nil => cases rest <;> simp [put, kind?, kind]
      | cons first more =>
        cases rest with
        | nil =>
          by_cases hf : first = name
          · subst hf
            cases more <;> simp [put, kind?]
          · simp [put, kind?, Text.get?_put_of_ne hf, hf, Ne.symm hf]
        | cons second rest =>
          by_cases hf : first = name
          · subst hf
            simp only [List.dropLast_cons_cons, kind?] at h
            cases hg : Text.get? first entries with
            | none => simp [hg] at h
            | some inner =>
              simp only [hg, Option.bind_some] at h
              simp [put, kind?, hg, ih (by simp) h, List.cons_prefix_cons]
          · simp [put, kind?, Text.get?_put_of_ne hf, hf, Ne.symm hf, List.cons_prefix_cons]

theorem kind?_erase {location : Location} (hne : location ≠ []) (entry : Entry) (other : Location) :
    (erase location entry).kind? other = if location <+: other then none else entry.kind? other := by
  induction location generalizing entry other with
  | nil => exact absurd rfl hne
  | cons name rest ih =>
    cases entry with
    | file content => cases rest <;> cases other <;> simp [erase, kind?]
    | folder entries =>
      cases other with
      | nil => cases rest <;> cases hg : Text.get? name entries <;> simp [erase, kind?, kind, hg]
      | cons first more =>
        cases rest with
        | nil =>
          by_cases hf : first = name
          · subst hf
            simp [erase, kind?]
          · simp [erase, kind?, Text.get?_erase_of_ne hf, Ne.symm hf]
        | cons second rest =>
          by_cases hf : first = name
          · subst hf
            cases hg : Text.get? first entries with
            | none => simp [erase, kind?, hg]
            | some inner => simp [erase, kind?, hg, ih, List.cons_prefix_cons]
          · cases hg : Text.get? name entries with
            | none => simp [erase, kind?, hg, Ne.symm hf]
            | some inner => simp [erase, kind?, hg, Text.get?_put_of_ne hf, Ne.symm hf]

/-- What has something below it is a folder. -/
theorem kind?_eq_folder {location : Location} {name : Text} {rest : Location} {entry : Entry}
    (h : (entry.kind? (location ++ name :: rest)).isSome) : entry.kind? location = some .folder := by
  induction location generalizing entry with
  | nil => cases entry <;> simp_all [kind?, kind]
  | cons first more ih =>
    cases entry with
    | file content => simp [kind?] at h
    | folder entries =>
      simp only [List.cons_append, kind?] at h ⊢
      cases hg : Text.get? first entries with
      | none => simp [hg] at h
      | some inner => exact ih (by simpa [hg] using h)

def entries : Entry → List (Text × Entry)
  | file _ => []
  | folder entries => entries

theorem folder_entries_put (new : Entry) (location : Location) (inside : List (Text × Entry)) :
    folder (put new location (folder inside)).entries = put new location (folder inside) := by
  rcases location with _ | ⟨_, _ | _⟩ <;> rfl

theorem folder_entries_erase (location : Location) (inside : List (Text × Entry)) :
    folder (erase location (folder inside)).entries = erase location (folder inside) := by
  rcases location with _ | ⟨name, _ | _⟩
  · rfl
  · rfl
  · simp only [erase]
    split <;> rfl

/-! ### Listing -/

mutual

/-- All locations at and below one, with what stands there. -/
def listing (here : Location) : Entry → List (Location × Kind)
  | file content => [(here, .file content)]
  | folder entries => (here, .folder) :: listings here entries

def listings (here : Location) : List (Text × Entry) → List (Location × Kind)
  | [] => []
  | (name, entry) :: rest => listing (here ++ [name]) entry ++ listings here rest

end

end Entry

structure Store where
  entries : List (Text × Entry) := []

namespace Store

def root (store : Store) : Entry := .folder store.entries

def kind? (store : Store) (location : Location) : Option Kind := store.root.kind? location

/-- The store with a file or an empty folder at a location. -/
def put (store : Store) (location : Location) (kind : Kind) : Store where
  entries := (Entry.put (.ofKind kind) location store.root).entries

/-- The store without what stands at a location or below it. -/
def erase (store : Store) (location : Location) : Store where
  entries := (store.root.erase location).entries

theorem kind?_put {store : Store} {location : Location} (hne : location ≠ [])
    (h : store.kind? location.dropLast = some .folder) (new : Kind) (other : Location) :
    (store.put location new).kind? other =
      if other = location then some new else if location <+: other then none else store.kind? other := by
  have hput := Entry.kind?_put new hne h other
  rw [root, ← Entry.folder_entries_put] at hput
  exact hput

theorem kind?_erase (store : Store) {location : Location} (hne : location ≠ []) (other : Location) :
    (store.erase location).kind? other = if location <+: other then none else store.kind? other := by
  have herase := Entry.kind?_erase hne store.root other
  rw [root, ← Entry.folder_entries_erase] at herase
  exact herase

@[simp] theorem kind?_root (store : Store) : store.kind? [] = some .folder := rfl

/-- What has something below it is a folder. -/
theorem kind?_eq_folder {store : Store} {location : Location} {name : Text} {rest : Location}
    (h : (store.kind? (location ++ name :: rest)).isSome) : store.kind? location = some .folder :=
  Entry.kind?_eq_folder h

def listing (store : Store) : List (Location × Kind) := Entry.listings [] store.entries

end Store

end SurrealZod
