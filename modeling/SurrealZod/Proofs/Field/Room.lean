import Mathlib.Algebra.Order.BigOperators.Group.List
import Mathlib.Algebra.Order.Ring.Nat
import SurrealZod.Proofs.Field.Sections

/-! The room that texts take. A word that is read makes its slot longer by itself and one space at most, and not at
all if it is a keyword. So the texts that a statement is read into never take more room than those that it was
written from, and just as much only if each word of these is kept whole. -/

namespace SurrealZod

open Text

/-- No keyword ends in a semicolon. -/
theorem WordClass.of_concat_semicolon (word : Text) : WordClass.of (word ++ [';']) = .plain := by
  have hupper : upper (word ++ [';']) = upper word ++ [';'] := by
    rw [upper, List.flatMap_append, ← upper]
    rfl
  have hne {keyword : Text} (h : keyword.getLast? ≠ some ';') : keyword ≠ upper word ++ [';'] := by
    rintro rfl
    exact h List.getLast?_concat
  have hneutral : ∀ keyword ∈ (["DEFINE", "ON"] : List Text), keyword.getLast? ≠ some ';' := by decide
  have hslots : ∀ slot ∈ Slot.all, slot.keyword.getLast? ≠ some ';' := by decide
  have hnone : Slot.all.find? (·.keyword = upper word ++ [';']) = none := by
    rw [List.find?_eq_none]
    intro slot hslot
    simpa using hne (hslots slot hslot)
  simp only [WordClass.of, hupper, hnone, (hne (hneutral _ List.mem_cons_self)).symm,
    (hne (hneutral _ (List.mem_cons_of_mem _ List.mem_cons_self))).symm, or_self, if_false]

namespace Text

/-- How much room a text takes in a statement, with the space in front of it. -/
def width (t : Text) : Nat := if t = [] then 0 else t.length + 1

/-- How much of a word can get into a slot at most. -/
def keptWidth (word : Text) : Nat := if WordClass.of word = .plain then width (trimEnd word) else 0

/-- How much of a text can get into slots at most. -/
def load (t : Text) : Nat := ((t.splitOn ' ').map keptWidth).sum

theorem width_le (t : Text) : width t ≤ t.length + 1 := by
  unfold width
  split <;> omega

theorem length_trimEnd_le (t : Text) : (trimEnd t).length ≤ t.length := (trimEnd_isPrefix t).length_le

theorem width_mono {s t : Text} (h : s.length ≤ t.length) : width s ≤ width t := by
  unfold width
  by_cases ht : t = []
  · subst ht
    rw [if_pos (List.eq_nil_of_length_eq_zero (Nat.le_zero.mp h))]
    exact Nat.zero_le _
  · rw [if_neg ht]
    split <;> omega

/-- What a word adds to a text when it is appended. -/
theorem width_trim_append_le (t word : Text) : width (trim (t ++ ' ' :: word)) ≤ width t + width (trimEnd word) := by
  by_cases ht : t = []
  · subst ht
    rw [List.nil_append, trim_space_cons]
    exact (width_mono (length_trim_le_trimEnd word)).trans (Nat.le_add_left _ _)
  · have hsplit : t ++ ' ' :: word = t ++ [' '] ++ word := by simp
    have hspace : trimEnd (t ++ [' ']) = trimEnd t := by
      rw [trimEnd_append]
      rfl
    have hend : (trimEnd (t ++ ' ' :: word)).length ≤ t.length + width (trimEnd word) := by
      rw [hsplit, trimEnd_append, hspace, width]
      split
      · exact (length_trimEnd_le t).trans (Nat.le_add_right _ _)
      · simp only [List.length_append, List.length_singleton]
        omega
    calc width (trim (t ++ ' ' :: word))
      _ ≤ (trim (t ++ ' ' :: word)).length + 1 := width_le _
      _ ≤ (trimEnd (t ++ ' ' :: word)).length + 1 := Nat.succ_le_succ (length_trim_le_trimEnd _)
      _ ≤ t.length + width (trimEnd word) + 1 := Nat.succ_le_succ hend
      _ = width t + width (trimEnd word) := by
          rw [width, width, if_neg ht, Nat.add_right_comm]

theorem keptWidth_le (word : Text) : keptWidth word ≤ word.length + 1 := by
  have hwidth := width_le (trimEnd word)
  have htrim := length_trimEnd_le word
  unfold keptWidth
  split <;> omega

/-- A word that gets into a slot as a whole. -/
theorem of_keptWidth_eq {word : Text} (h : keptWidth word = word.length + 1) :
    word ≠ [] ∧ endsBlank word = false ∧ WordClass.of word = .plain := by
  unfold keptWidth width at h
  split_ifs at h with hplain hempty
  have hlength : (trimEnd word).length = word.length := by omega
  have htrim : trimEnd word = word := (trimEnd_isPrefix word).eq_of_length hlength
  exact ⟨htrim ▸ hempty, htrim ▸ endsBlank_trimEnd word, hplain⟩

theorem sum_length_splitOn (t : Text) : ((t.splitOn ' ').map fun word => word.length + 1).sum = t.length + 1 := by
  induction t with
  | nil => rfl
  | cons c t ih =>
      obtain ⟨word, rest, hsplit⟩ := List.exists_cons_of_ne_nil (List.splitOn_ne_nil ' ' t)
      rw [List.splitOn_cons_eq_if_modifyHead]
      rw [hsplit] at ih ⊢
      split
      · simp only [List.map_cons, List.sum_cons, List.length_nil, List.length_cons] at ih ⊢
        omega
      · simp only [List.modifyHead_cons, List.map_cons, List.sum_cons, List.length_cons] at ih ⊢
        omega

theorem load_nil : load [] = 0 := by decide

theorem load_le (t : Text) : load t ≤ width t := by
  by_cases h : t = []
  · subst h
    exact load_nil.le
  · rw [width, if_neg h, ← sum_length_splitOn]
    exact List.sum_le_sum fun word _ => keptWidth_le word

theorem load_join {parts : List Text} (h : parts ≠ []) : load (join [' '] parts) = (parts.map load).sum := by
  rw [load, splitOn_join ' ' h, List.map_flatMap, List.flatMap_def, List.sum_flatten, List.map_map]
  rfl

theorem splitOn_append {t : Text} (h : ' ' ∉ t) (s : Text) :
    ∃ front last, s.splitOn ' ' = front ++ [last] ∧ (s ++ t).splitOn ' ' = front ++ [last ++ t] := by
  induction s with
  | nil => exact ⟨[], [], rfl, List.splitOn_eq_singleton h⟩
  | cons c s ih =>
      obtain ⟨front, last, hs, hst⟩ := ih
      rw [List.cons_append, List.splitOn_cons_eq_if_modifyHead, List.splitOn_cons_eq_if_modifyHead, hs, hst]
      split
      · exact ⟨[] :: front, last, rfl, rfl⟩
      · cases front with
        | nil => exact ⟨[], c :: last, rfl, rfl⟩
        | cons word front => exact ⟨(c :: word) :: front, last, rfl, rfl⟩

/-- A semicolon at the end only makes the last word longer. -/
theorem load_lt_load_concat_semicolon (t : Text) : load t < load (t ++ [';']) := by
  obtain ⟨front, last, ht, hlonger⟩ := splitOn_append (by decide : ' ' ∉ [';']) t
  have hlast : keptWidth (last ++ [';']) = last.length + 2 := by
    have hend : endsBlank (last ++ [';']) = false := endsBlank_append last (List.cons_ne_nil _ _)
    rw [keptWidth, if_pos (WordClass.of_concat_semicolon last), trimEnd_eq_self hend, width,
      if_neg (List.append_ne_nil_of_right_ne_nil _ (List.cons_ne_nil _ _)), List.length_append]
    rfl
  have hle := keptWidth_le last
  simp only [load, ht, hlonger, List.map_append, List.sum_append, List.map_singleton, List.sum_singleton, hlast]
  omega

end Text

namespace FieldDefinition

/-- How much room the texts of a definition take. -/
def width (definition : FieldDefinition) : Nat :=
  (Slot.all.map fun slot => Text.width ((definition.get? slot).getD [])).sum

variable {definition : FieldDefinition}

theorem width_set (definition : FieldDefinition) (slot : Slot) (t : Text) :
    (definition.set slot t).width + Text.width ((definition.get? slot).getD []) = definition.width + Text.width t := by
  cases slot <;> simp only [width, Slot.all, Slot.clauses, List.map_cons, List.map_nil, List.sum_cons, List.sum_nil,
    get?, set, Option.getD_some] <;> omega

theorem width_append_le (definition : FieldDefinition) (slot : Slot) (word : Text) :
    (definition.append slot word).width ≤ definition.width + Text.width (trimEnd word) := by
  have hset := width_set definition slot (trim ((definition.get? slot).getD [] ++ ' ' :: word))
  have hword := width_trim_append_le ((definition.get? slot).getD []) word
  rw [append]
  omega

theorem width_readWords_le (opened : Option Slot) (definition : FieldDefinition) (words : List Text) :
    (readWords opened definition words).width ≤ definition.width + (words.map keptWidth).sum := by
  induction words generalizing opened definition with
  | nil => exact Nat.le_refl _
  | cons word words ih =>
      rw [List.map_cons, List.sum_cons]
      cases hclass : WordClass.of word with
      | opens slot =>
          rw [readWords_opens hclass]
          exact (ih _ _).trans (by omega)
      | neutral =>
          rw [readWords_neutral hclass]
          exact (ih _ _).trans (by omega)
      | plain =>
          rw [readWords_plain_cons hclass, keptWidth, if_pos hclass]
          cases opened with
          | none => exact (ih _ _).trans (Nat.add_le_add_left (Nat.le_add_left _ _) _)
          | some slot =>
              have hword := width_append_le definition slot word
              have hrest := ih (some slot) (definition.append slot word)
              simp only [Option.elim] at hrest ⊢
              omega

theorem width_ofStatement_le (statement : Text) :
    (ofStatement statement).width ≤ ((statementWords statement).map keptWidth).sum := by
  have hle := width_readWords_le none {} (statementWords statement)
  have hempty : ({} : FieldDefinition).width = 0 := by decide
  rwa [hempty, Nat.zero_add] at hle

theorem load_sectionsOf (definition : FieldDefinition) (slot : Slot) :
    ((definition.sectionsOf slot).map load).sum = load ((definition.get? slot).getD []) := by
  have hkeyword : load slot.keyword = 0 := by cases slot <;> decide
  rw [sectionsOf]
  cases definition.get? slot with
  | none => exact load_nil.symm
  | some text =>
      by_cases htext : text = []
      · subst htext
        simp [hkeyword, load_nil]
      · simp [htext, hkeyword]

theorem load_toStatement (definition : FieldDefinition) :
    load definition.toStatement = (Slot.all.map fun slot => load ((definition.get? slot).getD [])).sum := by
  have hhead : (definition.headSections.map load).sum = load definition.name + load definition.table := by
    have hdefine : load "DEFINE" = 0 := by decide
    have hfield : load "FIELD" = 0 := by decide
    have hon : load "ON" = 0 := by decide
    have htable : load "TABLE" = 0 := by decide
    simp only [headSections, List.map_cons, List.map_nil, List.sum_cons, List.sum_nil, hdefine, hfield, hon, htable]
    omega
  have hne : definition.sections ≠ [] := List.append_ne_nil_of_left_ne_nil definition.headSections_ne_nil _
  rw [toStatement_eq, load_join hne, sections,
    List.map_append, List.sum_append, hhead, List.map_flatMap, List.flatMap_def, List.sum_flatten, List.map_map]
  simp only [Function.comp_def, load_sectionsOf]
  rw [Slot.all, List.map_cons, List.map_cons, List.sum_cons, List.sum_cons, Nat.add_assoc]
  rfl

theorem load_toStatement_le (definition : FieldDefinition) : load definition.toStatement ≤ definition.width := by
  rw [load_toStatement]
  exact List.sum_le_sum fun slot _ => load_le _

end FieldDefinition

end SurrealZod
