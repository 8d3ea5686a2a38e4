import SurrealZod.Proofs.Field.Reading

/-! What a statement of a definition is made of. Its sections are keywords and texts, joined by spaces, so where
nothing is dropped from its end its words are those of the clauses, one behind the other. -/

namespace SurrealZod

open Text

namespace FieldDefinition

variable {definition : FieldDefinition}

/-! ### Sections -/

/-- What a statement says of a slot: its keyword, and its text unless it is empty. -/
def sectionsOf (definition : FieldDefinition) (slot : Slot) : List Text :=
  match definition.get? slot with
  | none => []
  | some text => slot.keyword :: if text = [] then [] else [text]

def headSections (definition : FieldDefinition) : List Text :=
  ["DEFINE", "FIELD", definition.name, "ON", "TABLE", definition.table]

def sections (definition : FieldDefinition) : List Text :=
  definition.headSections ++ Slot.clauses.flatMap definition.sectionsOf

theorem flatMap_sectionsOf (definition : FieldDefinition) (slot : Slot) :
    (definition.sectionsOf slot).flatMap ([' '] ++ ·) = definition.clauseText slot := by
  rw [sectionsOf, clauseText]
  cases definition.get? slot with
  | none => rfl
  | some text => cases text <;> simp

theorem headSections_ne_nil (definition : FieldDefinition) : definition.headSections ≠ [] := by
  unfold headSections
  exact List.cons_ne_nil _ _

theorem join_headSections (definition : FieldDefinition) : join [' '] definition.headSections =
    "DEFINE FIELD " ++ definition.name ++ " ON TABLE " ++ definition.table := by
  have hdefine : ("DEFINE FIELD " : Text) = "DEFINE" ++ ([' '] ++ ("FIELD" ++ [' '])) := by decide
  have hon : (" ON TABLE " : Text) = [' '] ++ ("ON" ++ ([' '] ++ ("TABLE" ++ [' ']))) := by decide
  rw [headSections, join_cons, hdefine, hon]
  simp only [List.flatMap_cons, List.flatMap_nil, List.append_assoc, List.append_nil]

theorem toStatement_eq (definition : FieldDefinition) : definition.toStatement = join [' '] definition.sections := by
  have hclauses : Slot.clauses.flatMap definition.clauseText =
      (Slot.clauses.flatMap definition.sectionsOf).flatMap ([' '] ++ ·) := by
    rw [List.flatMap_assoc]
    exact List.flatMap_congr fun slot _ => (definition.flatMap_sectionsOf slot).symm
  rw [sections, join_append _ definition.headSections_ne_nil, join_headSections, ← hclauses]
  rfl

/-- The text that a statement ends with: that of the last clause that is there, else the table. -/
def lastText (definition : FieldDefinition) : Text :=
  ((Slot.clauses.filterMap definition.get?).getLast?).getD definition.table

/-! ### The end of a statement -/

theorem lastText_eq (definition : FieldDefinition) :
    ∃ slot, definition.lastText = (definition.get? slot).getD [] := by
  rw [lastText]
  cases hlast : (Slot.clauses.filterMap definition.get?).getLast? with
  | none => exact ⟨.table, rfl⟩
  | some text =>
      obtain ⟨slot, -, hslot⟩ := List.mem_filterMap.mp (List.mem_of_getLast? hlast)
      exact ⟨slot, by rw [hslot, Option.getD_some, Option.getD_some]⟩

theorem endsBlank_lastText (h : ∀ slot, endsBlank ((definition.get? slot).getD []) = false) :
    endsBlank definition.lastText = false := by
  obtain ⟨slot, hslot⟩ := definition.lastText_eq
  rw [hslot, h slot]

/-- How the sections of some clauses end: with the last text, or with its keyword if that text is empty. -/
theorem flatMap_sectionsOf_cases (definition : FieldDefinition) (slots : List Slot) :
    (slots.filterMap definition.get? = [] ∧ slots.flatMap definition.sectionsOf = []) ∨
      ∃ text front last, (slots.filterMap definition.get?).getLast? = some text ∧
        slots.flatMap definition.sectionsOf = front ++ [last] ∧
        (text ≠ [] ∧ last = text ∨ text = [] ∧ ∃ slot : Slot, last = slot.keyword) := by
  induction slots using List.reverseRecOn with
  | nil => exact Or.inl ⟨rfl, rfl⟩
  | append_singleton slots slot ih =>
      rw [List.filterMap_append, List.flatMap_append, List.flatMap_singleton]
      cases hget : definition.get? slot with
      | none =>
          have hsections : definition.sectionsOf slot = [] := by rw [sectionsOf, hget]
          have htexts : [slot].filterMap definition.get? = [] := by simp [hget]
          rw [hsections, htexts, List.append_nil, List.append_nil]
          exact ih
      | some text =>
          right
          have htexts : [slot].filterMap definition.get? = [text] := by simp [hget]
          by_cases hempty : text = []
          · refine ⟨text, slots.flatMap definition.sectionsOf, slot.keyword, ?_, ?_, Or.inr ⟨hempty, slot, rfl⟩⟩
            · rw [htexts, List.getLast?_concat]
            · rw [sectionsOf, hget]
              exact congrArg (_ ++ slot.keyword :: ·) (if_pos hempty)
          · refine ⟨text, slots.flatMap definition.sectionsOf ++ [slot.keyword], text, ?_, ?_, Or.inl ⟨hempty, rfl⟩⟩
            · rw [htexts, List.getLast?_concat]
            · rw [sectionsOf, hget, List.append_assoc, List.singleton_append]
              exact congrArg (_ ++ slot.keyword :: ·) (if_neg hempty)

/-- How a statement ends: with the last text, with a keyword, or with the space in front of an empty table. -/
theorem sections_cases (definition : FieldDefinition) :
    (definition.lastText ≠ [] ∧ ∃ front, definition.sections = front ++ [definition.lastText]) ∨
      (definition.lastText = [] ∧ ∃ front, ∃ slot : Slot, definition.sections = front ++ [slot.keyword]) ∨
      (definition.lastText = [] ∧ definition.table = [] ∧ Slot.clauses.flatMap definition.sectionsOf = []) := by
  rcases definition.flatMap_sectionsOf_cases Slot.clauses with
    ⟨htexts, hsections⟩ | ⟨text, front, last, htexts, hsections, hlast⟩
  · have htext : definition.lastText = definition.table := by rw [lastText, htexts]; rfl
    by_cases htable : definition.table = []
    · exact Or.inr (Or.inr ⟨htext.trans htable, htable, hsections⟩)
    · refine Or.inl ⟨htext ▸ htable, ["DEFINE", "FIELD", definition.name, "ON", "TABLE"], ?_⟩
      rw [sections, hsections, htext]
      rfl
  · have htext : definition.lastText = text := by rw [lastText, htexts]; rfl
    rw [htext, sections, hsections, ← List.append_assoc]
    rcases hlast with ⟨hne, rfl⟩ | ⟨hempty, slot, rfl⟩
    · exact Or.inl ⟨hne, _, rfl⟩
    · exact Or.inr (Or.inl ⟨hempty, _, slot, rfl⟩)

theorem beginsBlank_toStatement (definition : FieldDefinition) : beginsBlank definition.toStatement = false := rfl

theorem getLast?_toStatement {front : List Text} {last : Text} (h : definition.sections = front ++ [last])
    (hne : last ≠ []) : definition.toStatement.getLast? = last.getLast? := by
  rw [toStatement_eq, h, getLast?_join_concat _ _ hne]

/-- A statement whose last section loses nothing is split at its spaces. -/
theorem statementWords_of_last {front : List Text} {last : Text} (h : definition.sections = front ++ [last])
    (hne : last ≠ []) (hend : endsBlank last = false) (hsemicolon : last.getLast? ≠ some ';') :
    statementWords definition.toStatement = definition.toStatement.splitOn ' ' := by
  have hlast := getLast?_toStatement h hne
  apply statementWords_eq_splitOn definition.beginsBlank_toStatement
  · rw [endsBlank, hlast, ← endsBlank, hend]
  · rw [hlast]
    exact hsemicolon

theorem toStatement_of_semicolon (h : definition.lastText.getLast? = some ';') :
    ∃ t, definition.toStatement = t ++ [';'] ∧ statementWords definition.toStatement = t.splitOn ' ' := by
  have hlast : definition.toStatement.getLast? = some ';' := by
    rcases definition.sections_cases with ⟨hne, front, hsections⟩ | ⟨hempty, -⟩ | ⟨hempty, -⟩
    · rw [getLast?_toStatement hsections hne, h]
    all_goals
      rw [hempty] at h
      cases h
  obtain ⟨t, ht⟩ := List.getLast?_eq_some_iff.mp hlast
  refine ⟨t, ht, ?_⟩
  have hbegin := definition.beginsBlank_toStatement
  rw [ht] at hbegin ⊢
  exact statementWords_concat_semicolon hbegin

/-- If nothing is dropped from the end of a statement, reading it splits it at its spaces. Only an empty table at
the end has no word. -/
theorem splitOn_toStatement (hend : endsBlank definition.lastText = false)
    (hsemicolon : definition.lastText.getLast? ≠ some ';') :
    definition.toStatement.splitOn ' ' = statementWords definition.toStatement ∨
      (definition.table = [] ∧ Slot.clauses.flatMap definition.sectionsOf = [] ∧
        definition.toStatement.splitOn ' ' = statementWords definition.toStatement ++ [[]]) := by
  rcases definition.sections_cases with ⟨hne, front, hsections⟩ | ⟨-, front, slot, hsections⟩ | ⟨-, htable, hsections⟩
  · left
    exact (statementWords_of_last hsections hne hend hsemicolon).symm
  · left
    have hkeyword : slot.keyword ≠ [] ∧ endsBlank slot.keyword = false ∧ slot.keyword.getLast? ≠ some ';' := by
      cases slot <;> decide
    exact (statementWords_of_last hsections hkeyword.1 hkeyword.2.1 hkeyword.2.2).symm
  · right
    refine ⟨htable, hsections, ?_⟩
    have hstatement : definition.toStatement =
        join [' '] ((["DEFINE", "FIELD", definition.name, "ON"] : List Text) ++ [("TABLE" : Text)]) ++ [' '] := by
      have hne : (["DEFINE", "FIELD", definition.name, "ON", "TABLE"] : List Text) ≠ [] := List.cons_ne_nil _ _
      have hjoin := join_concat [' '] [] hne
      rw [toStatement_eq, sections, hsections, headSections, htable]
      exact hjoin
    have hlast := getLast?_join_concat [' '] ["DEFINE", "FIELD", definition.name, "ON"]
      (by decide : ("TABLE" : Text) ≠ [])
    -- The space in front of the empty table is dropped, so the empty piece behind it is no word.
    have hbegin := definition.beginsBlank_toStatement
    rw [hstatement] at hbegin ⊢
    have hshorter := beginsBlank_of_isPrefix (List.prefix_append _ _) hbegin
    rw [statementWords_concat_space,
      statementWords_eq_splitOn hshorter (by rw [endsBlank, hlast]; decide) (by rw [hlast]; decide),
      List.splitOn_append_cons_self]
    rfl

/-! ### The clauses of a statement -/

/-- The words that a statement has of an optional text. -/
def textWords (text : Option Text) : List Text :=
  match text with
  | none => []
  | some text => if text = [] then [] else text.splitOn ' '

def clause? (definition : FieldDefinition) (slot : Slot) : Option Clause :=
  (definition.get? slot).map fun text => Clause.ofSlot slot (textWords (some text))

theorem wordsOf_filterMap_clause? {slots : List Slot} (h : slots.Nodup) (definition : FieldDefinition) (slot : Slot) :
    Clause.wordsOf slot (slots.filterMap definition.clause?) =
      if slot ∈ slots then textWords (definition.get? slot) else [] := by
  induction slots with
  | nil => rfl
  | cons other slots ih =>
      obtain ⟨hother, hnodup⟩ := List.nodup_cons.mp h
      have hslots := ih hnodup
      cases hget : definition.get? other with
      | none =>
          rw [List.filterMap_cons_none (by rw [clause?, hget, Option.map_none]), hslots]
          by_cases heq : slot = other
          · subst heq
            rw [if_neg hother, if_pos List.mem_cons_self, hget]
            rfl
          · simp [heq]
      | some text =>
          rw [List.filterMap_cons_some (by rw [clause?, hget, Option.map_some]), Clause.wordsOf_cons,
            Clause.slot_ofSlot, Clause.words_ofSlot, hslots]
          by_cases heq : other = slot
          · subst heq
            rw [if_pos rfl, if_neg hother, if_pos List.mem_cons_self, hget, List.append_nil]
          · rw [if_neg heq]
            simp [Ne.symm heq]

theorem flatMap_written_clause? (definition : FieldDefinition) (slots : List Slot) :
    (slots.filterMap definition.clause?).flatMap Clause.written =
      (slots.flatMap definition.sectionsOf).flatMap (·.splitOn ' ') := by
  have hkeyword (slot : Slot) : slot.keyword.splitOn ' ' = [slot.keyword] := by cases slot <;> decide
  induction slots with
  | nil => rfl
  | cons slot slots ih =>
      rw [List.flatMap_cons, List.flatMap_append, ← ih, sectionsOf]
      cases hget : definition.get? slot with
      | none => rw [List.filterMap_cons_none (by rw [clause?, hget, Option.map_none])]; rfl
      | some text =>
          rw [List.filterMap_cons_some (by rw [clause?, hget, Option.map_some]), List.flatMap_cons, Clause.ofSlot,
            Clause.written, textWords, List.flatMap_cons, hkeyword]
          by_cases htext : text = []
          · simp [htext]
          · simp [htext]

def nameClause (definition : FieldDefinition) : Clause :=
  Clause.ofSlot .name (definition.name.splitOn ' ')

/-- The clauses behind `ON`. An empty table at the end of a statement has no word, not even an empty one. -/
def furtherClauses (definition : FieldDefinition) (tableWords : List Text) : List Clause :=
  Clause.ofSlot .table tableWords :: Slot.clauses.filterMap definition.clause?

theorem flatMap_written_furtherClauses (definition : FieldDefinition) (tableWords : List Text) :
    (definition.furtherClauses tableWords).flatMap Clause.written =
      Slot.table.keyword :: (tableWords ++ (Slot.clauses.flatMap definition.sectionsOf).flatMap (·.splitOn ' ')) := by
  rw [furtherClauses, List.flatMap_cons, flatMap_written_clause?]
  rfl

/-- The words of a statement that loses nothing at its end, clause by clause. -/
theorem statementWords_toStatement (hend : endsBlank definition.lastText = false)
    (hsemicolon : definition.lastText.getLast? ≠ some ';') :
    ∃ tableWords, (tableWords = definition.table.splitOn ' ' ∨ definition.table = [] ∧ tableWords = []) ∧
      statementWords definition.toStatement = ("DEFINE" : Text) :: (definition.nameClause.written ++
        ("ON" : Text) :: (definition.furtherClauses tableWords).flatMap Clause.written) := by
  have hkeywords : ∀ word ∈ (["DEFINE", "FIELD", "ON", "TABLE"] : List Text), word.splitOn ' ' = [word] := by decide
  have hne : definition.sections ≠ [] := List.append_ne_nil_of_left_ne_nil definition.headSections_ne_nil _
  have hsplit : definition.toStatement.splitOn ' ' = ("DEFINE" : Text) :: (definition.nameClause.written ++
      ("ON" : Text) :: Slot.table.keyword :: (definition.table.splitOn ' ' ++
        (Slot.clauses.flatMap definition.sectionsOf).flatMap (·.splitOn ' '))) := by
    rw [toStatement_eq, splitOn_join ' ' hne, sections, headSections, List.flatMap_append]
    simp only [List.flatMap_cons, List.flatMap_nil, hkeywords "DEFINE" (by decide), hkeywords "FIELD" (by decide),
      hkeywords "ON" (by decide), hkeywords "TABLE" (by decide), List.append_nil, List.append_assoc, List.cons_append]
    rfl
  rcases splitOn_toStatement hend hsemicolon with hwords | ⟨htable, hsections, hwords⟩
  · refine ⟨definition.table.splitOn ' ', Or.inl rfl, ?_⟩
    rw [← hwords, hsplit, flatMap_written_furtherClauses]
  · refine ⟨[], Or.inr ⟨htable, rfl⟩, ?_⟩
    apply (List.append_left_inj [[]]).mp
    rw [← hwords, hsplit, flatMap_written_furtherClauses, hsections, htable]
    simp

theorem reads_clauses (definition : FieldDefinition) {tableWords : List Text}
    (hname : ∀ word ∈ definition.name.splitOn ' ', WordClass.of word = .plain)
    (htable : ∀ word ∈ tableWords, WordClass.of word = .plain)
    (hclauses : ∀ slot ∈ Slot.clauses, ∀ word ∈ textWords (definition.get? slot), WordClass.of word = .plain) :
    ∀ clause ∈ definition.nameClause :: definition.furtherClauses tableWords, clause.Reads := by
  intro clause hclause
  rcases List.mem_cons.mp hclause with rfl | hclause
  · exact Clause.reads_ofSlot hname
  · rcases List.mem_cons.mp hclause with rfl | hclause
    · exact Clause.reads_ofSlot htable
    · obtain ⟨slot, hslot, hsome⟩ := List.mem_filterMap.mp hclause
      obtain ⟨text, htext, rfl⟩ := Option.map_eq_some_iff.mp hsome
      exact Clause.reads_ofSlot (htext ▸ hclauses slot hslot)

theorem wordsOf_clauses (definition : FieldDefinition) (tableWords : List Text) (slot : Slot) :
    Clause.wordsOf slot (definition.nameClause :: definition.furtherClauses tableWords) =
      match slot with
      | .name => definition.name.splitOn ' '
      | .table => tableWords
      | slot => textWords (definition.get? slot) := by
  rw [nameClause, furtherClauses, Clause.wordsOf_cons, Clause.wordsOf_cons,
    wordsOf_filterMap_clause? (by decide)]
  cases slot <;> simp [Slot.clauses]

end FieldDefinition

end SurrealZod
