import Mathlib.Data.List.Induction
import SurrealZod.Field.Definition
import SurrealZod.Proofs.Text.Words

/-! What the words of a statement fill in. A clause is a keyword with plain words behind it. Reading it appends
these words to the slot that the keyword opens and to no other, so a list of clauses gives each slot the words
of its own clauses, in order. An empty slot then holds the text that the words make up. -/

namespace SurrealZod

open Text

/-- A keyword and the words behind it. -/
structure Clause where
  slot : Slot
  keyword : Text
  words : List Text

namespace WordClass

variable {word other : Text} {slot : Slot}

theorem of_keyword (slot : Slot) : of slot.keyword = .opens slot := by cases slot <;> decide

/-- The class of a word is that of its capitals. -/
theorem of_eq_of_upper (h : upper word = other) (hother : upper other = other) : of word = of other := by
  unfold of
  rw [h, hother]

theorem upper_of_opens (h : of word = .opens slot) : upper word = slot.keyword := by
  unfold of at h
  dsimp only at h
  split_ifs at h
  cases hfind : Slot.all.find? (·.keyword = upper word) with
  | none =>
      rw [hfind] at h
      cases h
  | some found =>
      have hkeyword : found.keyword = upper word := by simpa using List.find?_some hfind
      rw [hfind] at h
      cases h
      exact hkeyword.symm

theorem of_eq_opens_iff : of word = .opens slot ↔ upper word = slot.keyword := by
  refine ⟨upper_of_opens, fun h => ?_⟩
  have hself : upper slot.keyword = slot.keyword := by cases slot <;> decide
  rw [of_eq_of_upper h hself, of_keyword]

end WordClass

namespace Clause

/-- The clause of a slot with the keyword as it is listed. -/
def ofSlot (slot : Slot) (words : List Text) : Clause := { slot, keyword := slot.keyword, words }

@[simp] theorem slot_ofSlot (slot : Slot) (words : List Text) : (ofSlot slot words).slot = slot := rfl

@[simp] theorem words_ofSlot (slot : Slot) (words : List Text) : (ofSlot slot words).words = words := rfl

def written (clause : Clause) : List Text := clause.keyword :: clause.words

/-- Whether the keyword opens the slot and the words behind it keep it open. -/
structure Reads (clause : Clause) : Prop where
  opens : WordClass.of clause.keyword = .opens clause.slot
  plain : ∀ word ∈ clause.words, WordClass.of word = .plain

/-- The words that the clauses of a slot have, in order. -/
def wordsOf (slot : Slot) (clauses : List Clause) : List Text :=
  (clauses.filter (·.slot = slot)).flatMap (·.words)

variable {slot : Slot} {clause : Clause}

theorem reads_ofSlot {words : List Text} (h : ∀ word ∈ words, WordClass.of word = .plain) : (ofSlot slot words).Reads :=
  ⟨WordClass.of_keyword slot, h⟩

theorem wordsOf_cons_self (h : clause.slot = slot) (clauses : List Clause) :
    wordsOf slot (clause :: clauses) = clause.words ++ wordsOf slot clauses := by
  rw [wordsOf, List.filter_cons_of_pos (by simpa using h), List.flatMap_cons, ← wordsOf]

theorem wordsOf_cons_of_ne (h : clause.slot ≠ slot) (clauses : List Clause) :
    wordsOf slot (clause :: clauses) = wordsOf slot clauses := by
  rw [wordsOf, List.filter_cons_of_neg (by simpa using h), ← wordsOf]

theorem wordsOf_cons (slot : Slot) (clause : Clause) (clauses : List Clause) :
    wordsOf slot (clause :: clauses) =
      if clause.slot = slot then clause.words ++ wordsOf slot clauses else wordsOf slot clauses := by
  split
  · exact wordsOf_cons_self ‹_› clauses
  · exact wordsOf_cons_of_ne ‹_› clauses

theorem wordsOf_eq_nil {clauses : List Clause} (h : ∀ clause ∈ clauses, clause.slot ≠ slot) :
    wordsOf slot clauses = [] := by
  rw [wordsOf, List.filter_eq_nil_iff.mpr (by simpa using h), List.flatMap_nil]

theorem exists_of_mem_wordsOf {clauses : List Clause} {word : Text} (h : word ∈ wordsOf slot clauses) :
    ∃ clause ∈ clauses, word ∈ clause.words := by
  obtain ⟨clause, hclause, hword⟩ := List.mem_flatMap.mp h
  exact ⟨clause, List.mem_of_mem_filter hclause, hword⟩

end Clause

namespace FieldDefinition

variable {definition other : FieldDefinition} {slot : Slot} {words : List Text}

/-! ### Appending words -/

theorem get?_append_self (definition : FieldDefinition) (slot : Slot) (word : Text) :
    (definition.append slot word).get? slot = some (trim ((definition.get? slot).getD [] ++ ' ' :: word)) :=
  get?_set_self _ _ _

theorem get?_append_of_ne (definition : FieldDefinition) {slot target : Slot} (h : target ≠ slot) (word : Text) :
    (definition.append slot word).get? target = definition.get? target :=
  get?_set_of_ne _ _ h

def appendAll (definition : FieldDefinition) (slot : Slot) (words : List Text) : FieldDefinition :=
  words.foldl (·.append slot) definition

theorem appendAll_append (definition : FieldDefinition) (slot : Slot) (words more : List Text) :
    definition.appendAll slot (words ++ more) = (definition.appendAll slot words).appendAll slot more :=
  List.foldl_append

theorem get?_appendAll_of_ne {target : Slot} (h : target ≠ slot) (words : List Text) :
    (definition.appendAll slot words).get? target = definition.get? target := by
  induction words generalizing definition with
  | nil => rfl
  | cons word words ih => exact ih.trans (get?_append_of_ne definition h word)

/-- What is appended to a slot does not depend on the others. -/
theorem get?_appendAll_congr (h : definition.get? slot = other.get? slot) (words : List Text) :
    (definition.appendAll slot words).get? slot = (other.appendAll slot words).get? slot := by
  induction words generalizing definition other with
  | nil => exact h
  | cons word words ih =>
      apply ih
      rw [get?_append_self, get?_append_self, h]

theorem get?_appendAll_clause (definition : FieldDefinition) (slot : Slot) (clause : Clause)
    (clauses : List Clause) :
    ((definition.appendAll clause.slot clause.words).appendAll slot (Clause.wordsOf slot clauses)).get? slot =
      (definition.appendAll slot (Clause.wordsOf slot (clause :: clauses))).get? slot := by
  by_cases h : clause.slot = slot
  · rw [Clause.wordsOf_cons_self h, appendAll_append, h]
  · rw [Clause.wordsOf_cons_of_ne h]
    exact get?_appendAll_congr (get?_appendAll_of_ne (Ne.symm h) _) _

/-- Words that trimming leaves as they are make up their joined text. -/
theorem get?_appendAll_eq_join (hne : words ≠ []) (hempty : (definition.get? slot).getD [] = [])
    (hwords : ∀ word ∈ words, word ≠ [] ∧ endsBlank word = false) (hbegin : beginsBlank (join [' '] words) = false) :
    (definition.appendAll slot words).get? slot = some (join [' '] words) := by
  induction words using List.reverseRecOn with
  | nil => exact absurd rfl hne
  | append_singleton words word ih =>
      obtain ⟨hword, hend⟩ := hwords word (List.mem_append_right _ List.mem_cons_self)
      have hlast : (definition.appendAll slot (words ++ [word])).get? slot =
          some (trim (((definition.appendAll slot words).get? slot).getD [] ++ ' ' :: word)) := by
        rw [appendAll_append]
        exact get?_append_self _ slot word
      by_cases hwordsne : words = []
      · subst hwordsne
        have hempty' : ((definition.appendAll slot []).get? slot).getD [] = [] := hempty
        have hjoin : join [' '] ([] ++ [word]) = word := List.intercalate_singleton
        rw [hjoin] at hbegin ⊢
        rw [hlast, hempty', List.nil_append, trim_space_cons, trim_eq_self hbegin hend]
      · rw [join_concat _ _ hwordsne] at hbegin ⊢
        have hprevious := ih hwordsne
          (fun other hother => hwords other (List.mem_append_left _ hother))
          (beginsBlank_of_isPrefix (List.prefix_append _ _) hbegin)
        have hend' : endsBlank (join [' '] words ++ ([' '] ++ word)) = false := by
          rw [← List.append_assoc, endsBlank_append _ hword, hend]
        rw [hlast, hprevious, Option.getD_some]
        exact congrArg some (trim_eq_self hbegin hend')

/-! ### The words of a statement -/

theorem statementWords_eq_splitOn {t : Text} (hbegin : beginsBlank t = false) (hend : endsBlank t = false)
    (hsemicolon : t.getLast? ≠ some ';') : statementWords t = t.splitOn ' ' := by
  rw [statementWords, trim_eq_self hbegin hend, dropLast?, if_neg hsemicolon, Option.getD_none]

theorem statementWords_concat_semicolon {t : Text} (hbegin : beginsBlank (t ++ [';']) = false) :
    statementWords (t ++ [';']) = t.splitOn ' ' := by
  have hend : endsBlank (t ++ [';']) = false := endsBlank_append t (List.cons_ne_nil _ _)
  rw [statementWords, trim_eq_self hbegin hend, dropLast?, if_pos List.getLast?_concat, Option.getD_some,
    List.dropLast_concat]

theorem statementWords_concat_space (t : Text) : statementWords (t ++ [' ']) = statementWords t := by
  rw [statementWords, statementWords, trim_concat_space]

theorem statementWords_of_words {t : Text} (h : ∀ word ∈ t.splitOn ' ', IsWord word) :
    statementWords t = t.splitOn ' ' :=
  statementWords_eq_splitOn (beginsBlank_of_words h)
    (endsBlank_of_words fun word hword => ⟨(h word hword).ne_nil, (h word hword).endsBlank⟩) (getLast?_ne_semicolon h)

/-! ### Reading words -/

theorem readWords_neutral {word : Text} (h : WordClass.of word = .neutral) (opened : Option Slot)
    (definition : FieldDefinition) (rest : List Text) :
    readWords opened definition (word :: rest) = readWords opened definition rest := by
  simp only [readWords, h]

theorem readWords_opens {word : Text} (h : WordClass.of word = .opens slot) (opened : Option Slot)
    (definition : FieldDefinition) (rest : List Text) :
    readWords opened definition (word :: rest) = readWords (some slot) definition rest := by
  simp only [readWords, h]

theorem readWords_plain_cons {word : Text} (h : WordClass.of word = .plain) (opened : Option Slot)
    (definition : FieldDefinition) (rest : List Text) :
    readWords opened definition (word :: rest) =
      readWords opened (opened.elim definition (definition.append · word)) rest := by
  cases opened <;> simp only [readWords, h, Option.elim]

theorem readWords_plain (h : ∀ word ∈ words, WordClass.of word = .plain) (rest : List Text) :
    readWords (some slot) definition (words ++ rest) =
      readWords (some slot) (definition.appendAll slot words) rest := by
  induction words generalizing definition with
  | nil => rfl
  | cons word words ih =>
      rw [List.cons_append, readWords_plain_cons (h word List.mem_cons_self)]
      exact ih fun other hother => h other (List.mem_cons_of_mem _ hother)

theorem readWords_written {clause : Clause} (h : clause.Reads) (opened : Option Slot)
    (definition : FieldDefinition) (rest : List Text) :
    readWords opened definition (clause.written ++ rest) =
      readWords (some clause.slot) (definition.appendAll clause.slot clause.words) rest := by
  rw [Clause.written, List.cons_append, readWords_opens h.opens]
  exact readWords_plain h.plain rest

/-- The slots behind a list of clauses. -/
theorem get?_readWords_clauses {clauses : List Clause} (h : ∀ clause ∈ clauses, clause.Reads) (opened : Option Slot)
    (definition : FieldDefinition) (slot : Slot) :
    (readWords opened definition (clauses.flatMap Clause.written)).get? slot =
      (definition.appendAll slot (Clause.wordsOf slot clauses)).get? slot := by
  induction clauses generalizing opened definition with
  | nil => rfl
  | cons clause clauses ih =>
      rw [List.flatMap_cons, readWords_written (h clause List.mem_cons_self),
        ih fun other hother => h other (List.mem_cons_of_mem _ hother), get?_appendAll_clause]

/-- The slots behind a whole statement: neutral words stand in front of the first clause and behind it. -/
theorem get?_readWords_statement {define on : Text} (hdefine : WordClass.of define = .neutral)
    (hon : WordClass.of on = .neutral) {first : Clause} {clauses : List Clause}
    (h : ∀ clause ∈ first :: clauses, clause.Reads) (slot : Slot) :
    (readWords none {} (define :: (first.written ++ on :: clauses.flatMap Clause.written))).get? slot =
      (({} : FieldDefinition).appendAll slot (Clause.wordsOf slot (first :: clauses))).get? slot := by
  rw [readWords_neutral hdefine, readWords_written (h first List.mem_cons_self), readWords_neutral hon,
    get?_readWords_clauses fun other hother => h other (List.mem_cons_of_mem _ hother), get?_appendAll_clause]

/-- What plain words leave true, reading leaves true. -/
theorem readWords_induction {P : FieldDefinition → Prop}
    (happend : ∀ word ∈ words, WordClass.of word = .plain → ∀ slot definition, P definition →
      P (definition.append slot word))
    (opened : Option Slot) (h : P definition) : P (readWords opened definition words) := by
  induction words generalizing opened definition with
  | nil => exact h
  | cons word words ih =>
      have hrest := fun other hother => happend other (List.mem_cons_of_mem word hother)
      cases hclass : WordClass.of word with
      | opens slot =>
          rw [readWords_opens hclass]
          exact ih hrest _ h
      | neutral =>
          rw [readWords_neutral hclass]
          exact ih hrest _ h
      | plain =>
          rw [readWords_plain_cons hclass]
          cases opened with
          | none => exact ih hrest _ h
          | some slot => exact ih hrest _ (happend word List.mem_cons_self hclass slot definition h)

end FieldDefinition

end SurrealZod
