import Mathlib.Data.Char
import Mathlib.Data.List.Lex
import Mathlib.Data.List.Sort
import SurrealZod.Text.Keyed

/-! Entries in the order of their keys. Each key occurs once, so membership and lookup say the same, and
the lookups determine the list. Setting a key keeps the order. -/

namespace SurrealZod.Text

variable {α β : Type} {entries : List (Text × α)}

/-- Each key is below all keys that follow it. -/
def Ascending (entries : List (Text × α)) : Prop := entries.Pairwise fun a b => a.1 < b.1

theorem ascending_map_iff {f : α → β} :
    Ascending (entries.map fun entry => (entry.1, f entry.2)) ↔ Ascending entries :=
  List.pairwise_map

theorem mem_of_get?_eq_some {key : Text} {value : α} (h : get? key entries = some value) :
    (key, value) ∈ entries := by
  induction entries with
  | nil => cases h
  | cons entry rest ih =>
      rw [get?] at h
      split at h
      · rename_i heq
        cases h
        rw [heq]
        exact List.mem_cons_self
      · exact List.mem_cons_of_mem _ (ih h)

theorem get?_eq_none {key : Text} (h : ∀ entry ∈ entries, key ≠ entry.1) : get? key entries = none := by
  cases hget : get? key entries with
  | none => rfl
  | some value => exact absurd rfl (h _ (mem_of_get?_eq_some hget))

theorem Ascending.get?_of_mem (h : Ascending entries) {key : Text} {value : α} (hmem : (key, value) ∈ entries) :
    get? key entries = some value := by
  induction entries with
  | nil => cases hmem
  | cons entry rest ih =>
      obtain ⟨hfirst, hrest⟩ := List.pairwise_cons.mp h
      rw [get?]
      rcases List.mem_cons.mp hmem with rfl | hmem
      · exact if_pos rfl
      · have hlt : entry.1 < key := hfirst _ hmem
        rw [if_neg hlt.ne']
        exact ih hrest hmem

theorem Ascending.get?_eq_some_iff (h : Ascending entries) {key : Text} {value : α} :
    get? key entries = some value ↔ (key, value) ∈ entries :=
  ⟨mem_of_get?_eq_some, h.get?_of_mem⟩

/-- Entries with ascending keys are the same if every key has the same value. -/
theorem Ascending.ext_get? {others : List (Text × α)} (h : Ascending entries) (hothers : Ascending others)
    (heq : ∀ key, get? key entries = get? key others) : entries = others := by
  have hirrefl : Std.Irrefl fun a b : Text × α => a.1 < b.1 := ⟨fun a => lt_irrefl a.1⟩
  have hantisymm : Std.Antisymm fun a b : Text × α => a.1 < b.1 :=
    ⟨fun _ _ hab hba => absurd hba hab.asymm⟩
  apply List.Pairwise.eq_of_mem_iff h hothers
  intro entry
  rw [← h.get?_eq_some_iff, ← hothers.get?_eq_some_iff, heq]

theorem mem_put {key : Text} {value : α} {entry : Text × α} (h : entry ∈ put key value entries) :
    entry = (key, value) ∨ entry ∈ entries := by
  induction entries with
  | nil => exact Or.inl (List.mem_singleton.mp h)
  | cons first rest ih =>
      rw [put] at h
      split_ifs at h
      · rcases List.mem_cons.mp h with h | h
        · exact Or.inl h
        · exact Or.inr (List.mem_cons_of_mem _ h)
      · exact List.mem_cons.mp h
      · rcases List.mem_cons.mp h with h | h
        · exact Or.inr (h ▸ List.mem_cons_self)
        · exact (ih h).imp_right (List.mem_cons_of_mem _)

theorem Ascending.put (h : Ascending entries) (key : Text) (value : α) : Ascending (put key value entries) := by
  induction entries with
  | nil => exact List.pairwise_singleton _ _
  | cons first rest ih =>
      obtain ⟨hfirst, hrest⟩ := List.pairwise_cons.mp h
      rw [Text.put]
      split_ifs with heq hlt
      · subst heq
        exact List.pairwise_cons.mpr ⟨hfirst, hrest⟩
      · refine List.pairwise_cons.mpr ⟨?_, h⟩
        intro entry hentry
        rcases List.mem_cons.mp hentry with rfl | hentry
        · exact hlt
        · exact lt_trans hlt (hfirst entry hentry)
      · refine List.pairwise_cons.mpr ⟨?_, ih hrest⟩
        intro entry hentry
        rcases mem_put hentry with rfl | hentry
        · exact lt_of_le_of_ne (not_lt.mp hlt) (Ne.symm heq)
        · exact hfirst entry hentry

theorem put_ne_nil (key : Text) (value : α) (entries : List (Text × α)) : put key value entries ≠ [] := by
  cases entries with
  | nil => exact List.cons_ne_nil _ _
  | cons first rest =>
      rw [put]
      split_ifs <;> exact List.cons_ne_nil _ _

theorem get?_map (f : α → β) (key : Text) (entries : List (Text × α)) :
    get? key (entries.map fun entry => (entry.1, f entry.2)) = (get? key entries).map f := by
  induction entries with
  | nil => rfl
  | cons entry rest ih =>
      rw [List.map_cons, get?, get?]
      split
      · rfl
      · exact ih

end SurrealZod.Text
