import SurrealZod.Proofs.Field.Room
import SurrealZod.Proofs.Script.Statements

/-! Definitions that their own statements give back. They are those whose texts reading can produce: no text holds a
keyword or white space that trimming would drop, no clause is empty, and no semicolon stands at the end. For one
direction the slots are computed from the clauses of the statement, for the other the room that the texts take is
counted. -/

namespace SurrealZod

open Text

/-! ### Canonical texts -/

/-- A text that a slot holds after its words were read one by one. -/
structure Text.IsCanonical (t : Text) : Prop where
  ne_nil : t ≠ []
  begins : beginsBlank t = false
  words : ∀ word ∈ t.splitOn ' ', word ≠ [] ∧ endsBlank word = false ∧ WordClass.of word = .plain

instance (t : Text) : Decidable (Text.IsCanonical t) :=
  decidable_of_iff (t ≠ [] ∧ beginsBlank t = false ∧
      ∀ word ∈ t.splitOn ' ', word ≠ [] ∧ endsBlank word = false ∧ WordClass.of word = .plain)
    ⟨fun h => ⟨h.1, h.2.1, h.2.2⟩, fun h => ⟨h.ne_nil, h.begins, h.words⟩⟩

theorem Text.IsCanonical.ends {t : Text} (h : IsCanonical t) : endsBlank t = false :=
  endsBlank_of_words fun word hword => ⟨(h.words word hword).1, (h.words word hword).2.1⟩

/-- A text that can get into slots as a whole is canonical. -/
theorem Text.isCanonical_of_load_eq {t : Text} (hne : t ≠ []) (hbegin : beginsBlank t = false)
    (hload : load t = width t) : IsCanonical t := by
  refine ⟨hne, hbegin, fun word hword => of_keptWidth_eq ?_⟩
  rw [width, if_neg hne, ← sum_length_splitOn] at hload
  by_contra hkept
  have hlt : keptWidth word < word.length + 1 := lt_of_le_of_ne (keptWidth_le word) hkept
  exact absurd hload (List.sum_lt_sum _ _ (fun other _ => keptWidth_le other) ⟨word, hword, hlt⟩).ne

namespace FieldDefinition

variable {definition : FieldDefinition} {slot : Slot} {t : Text}

/-- The words of a canonical text make it up again in an empty slot. -/
theorem get?_appendAll_splitOn (slot : Slot) (h : t = [] ∨ IsCanonical t) :
    (({} : FieldDefinition).appendAll slot (t.splitOn ' ')).get? slot = some t := by
  rcases h with rfl | h
  · cases slot <;> rfl
  · have hjoin : join [' '] (t.splitOn ' ') = t := List.intercalate_splitOn ' '
    have hempty : (({} : FieldDefinition).get? slot).getD [] = [] := by cases slot <;> rfl
    have hwords := get?_appendAll_eq_join (List.splitOn_ne_nil ' ' t) hempty
      (fun word hword => ⟨(h.words word hword).1, (h.words word hword).2.1⟩) (by rw [hjoin]; exact h.begins)
    rwa [hjoin] at hwords

/-- An empty clause leaves no trace in its slot. -/
theorem get?_appendAll_textWords (hslot : slot ∈ Slot.clauses)
    (htexts : ∀ text ∈ definition.get? slot, text = [] ∨ IsCanonical text) :
    (({} : FieldDefinition).appendAll slot (textWords (definition.get? slot))).get? slot =
      if slot ∈ Slot.clauses ∧ definition.get? slot = some [] then none else definition.get? slot := by
  have hnone : (({} : FieldDefinition).appendAll slot []).get? slot = none := by
    revert hslot
    cases slot <;> decide
  cases hget : definition.get? slot with
  | none => rw [if_neg fun h => Option.some_ne_none _ h.2.symm]; exact hnone
  | some text =>
      by_cases hempty : text = []
      · subst hempty
        rw [if_pos ⟨hslot, rfl⟩]
        exact hnone
      · rw [if_neg fun h => hempty (Option.some_inj.mp h.2), textWords, if_neg hempty]
        exact get?_appendAll_splitOn slot (htexts text hget)

/-- What reading a statement gives back if it loses nothing at its end: every text except an empty clause. -/
theorem get?_ofStatement_toStatement
    (htexts : ∀ slot, ∀ text ∈ definition.get? slot, text = [] ∨ IsCanonical text)
    (hsemicolon : definition.lastText.getLast? ≠ some ';') (slot : Slot) :
    (ofStatement definition.toStatement).get? slot =
      if slot ∈ Slot.clauses ∧ definition.get? slot = some [] then none else definition.get? slot := by
  have hplain {t : Text} (h : t = [] ∨ IsCanonical t) : ∀ word ∈ t.splitOn ' ', WordClass.of word = .plain := by
    rcases h with rfl | h
    · decide
    · exact fun word hword => (h.words word hword).2.2
  have hend : endsBlank definition.lastText = false := by
    refine endsBlank_lastText fun slot => ?_
    cases hget : definition.get? slot with
    | none => rfl
    | some text =>
        rw [Option.getD_some]
        rcases htexts slot text hget with rfl | hcanonical
        · rfl
        · exact hcanonical.ends
  have hname := htexts .name _ rfl
  have htable := htexts .table _ rfl
  obtain ⟨tableWords, htableWords, hwords⟩ := statementWords_toStatement hend hsemicolon
  have hreads : ∀ clause ∈ definition.nameClause :: definition.furtherClauses tableWords, clause.Reads := by
    refine definition.reads_clauses (hplain hname) ?_ fun slot _ word hword => ?_
    · rcases htableWords with rfl | ⟨-, rfl⟩
      · exact hplain htable
      · exact fun word hword => absurd hword List.not_mem_nil
    · cases hget : definition.get? slot with
      | none => rw [hget] at hword; cases hword
      | some text =>
          rw [hget, textWords] at hword
          split at hword
          · cases hword
          · exact hplain (htexts slot text hget) word hword
  rw [ofStatement, hwords, get?_readWords_statement (by decide) (by decide) hreads, wordsOf_clauses]
  cases slot with
  | name =>
      rw [if_neg fun h => absurd h.1 (by decide)]
      exact get?_appendAll_splitOn .name hname
  | table =>
      rw [if_neg fun h => absurd h.1 (by decide)]
      rcases htableWords with rfl | ⟨hempty, rfl⟩
      · exact get?_appendAll_splitOn .table htable
      · exact congrArg some hempty.symm
  | fieldType | value | defaultValue | assert | inside => exact get?_appendAll_textWords (by decide) (htexts _)

/-! ### The definitions that their statements give back -/

/-- Whether every text is canonical, except that the name and the table may be empty, and no semicolon ends the last. -/
structure IsCanonical (definition : FieldDefinition) : Prop where
  name : definition.name = [] ∨ Text.IsCanonical definition.name
  table : definition.table = [] ∨ Text.IsCanonical definition.table
  clauses : ∀ slot ∈ Slot.clauses, ∀ text ∈ definition.get? slot, Text.IsCanonical text
  last : definition.lastText.getLast? ≠ some ';'

instance (definition : FieldDefinition) : Decidable definition.IsCanonical :=
  decidable_of_iff ((definition.name = [] ∨ Text.IsCanonical definition.name) ∧
      (definition.table = [] ∨ Text.IsCanonical definition.table) ∧
      (∀ slot ∈ Slot.clauses, ∀ text ∈ definition.get? slot, Text.IsCanonical text) ∧
      definition.lastText.getLast? ≠ some ';')
    ⟨fun h => ⟨h.1, h.2.1, h.2.2.1, h.2.2.2⟩, fun h => ⟨h.name, h.table, h.clauses, h.last⟩⟩

theorem IsCanonical.texts (h : definition.IsCanonical) (slot : Slot) :
    ∀ text ∈ definition.get? slot, text = [] ∨ Text.IsCanonical text := by
  intro text htext
  cases slot with
  | name => exact Option.some_inj.mp htext ▸ h.name
  | table => exact Option.some_inj.mp htext ▸ h.table
  | fieldType | value | defaultValue | assert | inside => exact Or.inr (h.clauses _ (by decide) text htext)

theorem IsCanonical.ofStatement_toStatement (h : definition.IsCanonical) :
    ofStatement definition.toStatement = definition := by
  refine ext_get? fun slot => ?_
  rw [get?_ofStatement_toStatement h.texts h.last]
  exact if_neg fun hempty => (h.clauses slot hempty.1 [] hempty.2).ne_nil rfl

theorem isTrimmed_ofStatement (statement : Text) (slot : Slot) :
    beginsBlank (((ofStatement statement).get? slot).getD []) = false ∧
      endsBlank (((ofStatement statement).get? slot).getD []) = false := by
  let IsTrimmed (d : FieldDefinition) : Prop :=
    ∀ slot, beginsBlank ((d.get? slot).getD []) = false ∧ endsBlank ((d.get? slot).getD []) = false
  have hempty : IsTrimmed {} := by
    intro slot
    cases slot <;> exact ⟨rfl, rfl⟩
  refine readWords_induction (P := IsTrimmed) (fun word _ _ target d h slot => ?_) none hempty slot
  by_cases heq : slot = target
  · subst heq
    rw [get?_append_self]
    exact ⟨beginsBlank_trim _, endsBlank_trim _⟩
  · rw [get?_append_of_ne d heq]
    exact h slot

/-- A semicolon that is dropped leaves too little room for the texts. -/
theorem lastText_ne_semicolon (h : ofStatement definition.toStatement = definition) :
    definition.lastText.getLast? ≠ some ';' := by
  intro hsemicolon
  obtain ⟨t, hstatement, hwords⟩ := toStatement_of_semicolon hsemicolon
  apply Nat.lt_irrefl definition.width
  calc definition.width
    _ = (ofStatement definition.toStatement).width := by rw [h]
    _ ≤ ((statementWords definition.toStatement).map keptWidth).sum := width_ofStatement_le _
    _ = load t := by rw [hwords, load]
    _ < load (t ++ [';']) := load_lt_load_concat_semicolon t
    _ = load definition.toStatement := by rw [hstatement]
    _ ≤ definition.width := load_toStatement_le definition

/-- Texts that all get back into their slots take all the room there is, so each word of them is kept whole. -/
theorem load_eq_width (h : ofStatement definition.toStatement = definition) (slot : Slot) :
    load ((definition.get? slot).getD []) = Text.width ((definition.get? slot).getD []) := by
  have hend : endsBlank definition.lastText = false := by
    refine endsBlank_lastText fun slot => ?_
    have htrimmed := isTrimmed_ofStatement definition.toStatement slot
    rw [h] at htrimmed
    exact htrimmed.2
  have hwords : ((statementWords definition.toStatement).map keptWidth).sum ≤ load definition.toStatement := by
    rcases splitOn_toStatement hend (lastText_ne_semicolon h) with hwords | ⟨-, -, hwords⟩
    · rw [← hwords, load]
    · rw [load, hwords, List.map_append, List.sum_append]
      exact Nat.le_add_right _ _
  by_contra hne
  have hlt : load ((definition.get? slot).getD []) < Text.width ((definition.get? slot).getD []) :=
    lt_of_le_of_ne (load_le _) hne
  apply Nat.lt_irrefl definition.width
  calc definition.width
    _ = (ofStatement definition.toStatement).width := by rw [h]
    _ ≤ ((statementWords definition.toStatement).map keptWidth).sum := width_ofStatement_le _
    _ ≤ load definition.toStatement := hwords
    _ = (Slot.all.map fun slot => load ((definition.get? slot).getD [])).sum := load_toStatement definition
    _ < definition.width := List.sum_lt_sum _ _ (fun _ _ => load_le _) ⟨slot, Slot.mem_all slot, hlt⟩

theorem isCanonical_of_ofStatement_toStatement (h : ofStatement definition.toStatement = definition) :
    definition.IsCanonical := by
  have htexts : ∀ slot, ∀ text ∈ definition.get? slot, text = [] ∨ Text.IsCanonical text := by
    intro slot text htext
    have hload := load_eq_width h slot
    have hbegin := (isTrimmed_ofStatement definition.toStatement slot).1
    rw [h, htext, Option.getD_some] at hbegin
    rw [htext, Option.getD_some] at hload
    exact or_iff_not_imp_left.mpr fun hne => isCanonical_of_load_eq hne hbegin hload
  have hlast := lastText_ne_semicolon h
  refine ⟨htexts .name _ rfl, htexts .table _ rfl, fun slot hslot text htext => ?_, hlast⟩
  refine (htexts slot text htext).resolve_left fun hempty => ?_
  have hgone := get?_ofStatement_toStatement htexts hlast slot
  rw [h, if_pos ⟨hslot, hempty ▸ htext⟩, htext] at hgone
  exact Option.some_ne_none _ hgone

end FieldDefinition

/-! ### Statements of words -/

/-- A text of whole words, none of which is a keyword. -/
def Text.IsPhrase (t : Text) : Prop := ∀ word ∈ t.splitOn ' ', IsWord word ∧ WordClass.of word = .plain

theorem Text.isPhrase_singleton {word : Text} (h : IsWord word) (hplain : WordClass.of word = .plain) :
    IsPhrase word := by
  intro other hother
  rw [List.splitOn_eq_singleton h.space_not_mem] at hother
  exact List.mem_singleton.mp hother ▸ ⟨h, hplain⟩

theorem Text.IsPhrase.append {t word : Text} (h : IsPhrase t) (hword : IsPhrase word) : IsPhrase (t ++ ' ' :: word) := by
  intro other hother
  rw [List.splitOn_append_cons_self] at hother
  exact (List.mem_append.mp hother).elim (h other) (hword other)

theorem Text.IsPhrase.isCanonical {t : Text} (h : IsPhrase t) : IsCanonical t where
  ne_nil := by
    rintro rfl
    exact (h [] List.mem_cons_self).1.ne_nil rfl
  begins := beginsBlank_of_words fun word hword => (h word hword).1
  words word hword := ⟨(h word hword).1.ne_nil, (h word hword).1.endsBlank, (h word hword).2⟩

namespace FieldDefinition

variable {definition : FieldDefinition}

/-- What reading whole words fills a definition with. -/
structure HasPhrases (definition : FieldDefinition) : Prop where
  texts : ∀ slot, (definition.get? slot).getD [] = [] ∨ IsPhrase ((definition.get? slot).getD [])
  clauses : ∀ slot ∈ Slot.clauses, definition.get? slot ≠ some []

theorem hasPhrases_empty : HasPhrases {} := by
  constructor
  · intro slot
    left
    cases slot <;> rfl
  · decide

theorem HasPhrases.append (h : definition.HasPhrases) {word : Text} (hword : IsWord word)
    (hplain : WordClass.of word = .plain) (slot : Slot) : (definition.append slot word).HasPhrases := by
  have hsingle := isPhrase_singleton hword hplain
  obtain ⟨text, htext, hphrase⟩ : ∃ text, (definition.append slot word).get? slot = some text ∧ IsPhrase text := by
    rw [get?_append_self]
    refine ⟨_, rfl, ?_⟩
    rcases h.texts slot with hnil | hphrase
    · rwa [hnil, List.nil_append, trim_space_cons, trim_eq_self hword.beginsBlank hword.endsBlank]
    · have hlonger := hphrase.append hsingle
      rwa [trim_eq_self hlonger.isCanonical.begins hlonger.isCanonical.ends]
  constructor
  · intro target
    by_cases heq : target = slot
    · subst heq
      rw [htext]
      exact Or.inr hphrase
    · rw [get?_append_of_ne definition heq]
      exact h.texts target
  · intro target htarget
    by_cases heq : target = slot
    · subst heq
      rw [htext]
      exact fun hempty => hphrase.isCanonical.ne_nil (Option.some_inj.mp hempty)
    · rw [get?_append_of_ne definition heq]
      exact h.clauses target htarget

theorem HasPhrases.isCanonical (h : definition.HasPhrases) : definition.IsCanonical where
  name := (h.texts .name).imp_right IsPhrase.isCanonical
  table := (h.texts .table).imp_right IsPhrase.isCanonical
  clauses slot hslot text htext := by
    have hslottext := h.texts slot
    rw [htext, Option.getD_some] at hslottext
    exact (hslottext.resolve_left fun hempty => h.clauses slot hslot (hempty ▸ htext)).isCanonical
  last := by
    obtain ⟨slot, hslot⟩ := definition.lastText_eq
    rw [hslot]
    rcases h.texts slot with hnil | hphrase
    · rw [hnil]
      exact Option.some_ne_none _ |>.symm
    · exact getLast?_ne_semicolon fun word hword => (hphrase word hword).1

theorem hasPhrases_ofStatement {words : List Text} (h : ∀ word ∈ words, IsWord word) :
    (ofStatement (join [' '] words)).HasPhrases := by
  by_cases hnil : words = []
  · subst hnil
    exact hasPhrases_empty
  · have hsplit := splitOn_join_words h hnil
    have hwords : statementWords (join [' '] words) = words :=
      (statementWords_of_words (by rwa [hsplit])).trans hsplit
    rw [ofStatement, hwords]
    exact readWords_induction (fun word hword hplain slot d hd => hd.append (h word hword) hplain slot) none
      hasPhrases_empty

theorem ofStatement_toStatement_of_words {words : List Text} (h : ∀ word ∈ words, IsWord word) :
    ofStatement (ofStatement (join [' '] words)).toStatement = ofStatement (join [' '] words) :=
  (hasPhrases_ofStatement h).isCanonical.ofStatement_toStatement

/-- Which definitions their own statements give back, among them all that were read from statements of words. -/
theorem ofStatement_toStatement_iff :
    (∀ definition : FieldDefinition, ofStatement definition.toStatement = definition ↔ definition.IsCanonical) ∧
    (∀ words : List Text, (∀ word ∈ words, IsWord word) →
      ofStatement (ofStatement (join [' '] words)).toStatement = ofStatement (join [' '] words)) ∧
    ∀ text, ∀ statement ∈ Script.statements text,
      ofStatement (ofStatement statement).toStatement = ofStatement statement := by
  refine ⟨fun definition => ⟨isCanonical_of_ofStatement_toStatement, IsCanonical.ofStatement_toStatement⟩,
    fun words => ofStatement_toStatement_of_words, fun text statement hstatement => ?_⟩
  have hwords := ofStatement_toStatement_of_words fun word => Script.isWord_of_mem_statements hstatement
  have hjoin : join [' '] (statement.splitOn ' ') = statement := List.intercalate_splitOn ' '
  rw [hjoin] at hwords
  exact hwords

theorem ofStatement_toStatement_of_two_statements :
    let words : List Text := ["DEFINE", "FIELD", "on", "a", "ON", "TABLE", "t", "DEFAULT", "value", "VALUE", "1"]
    let statement : Text := "DEFINE FIELD a ON t"
    let text : Text := "DEFINE FIELD a  ON t;\n  TYPE int;"
    (∀ word ∈ words, IsWord word) ∧
      ofStatement (ofStatement (join [' '] words)).toStatement = ofStatement (join [' '] words) ∧
      statement ∈ Script.statements text ∧ ofStatement (ofStatement statement).toStatement = ofStatement statement := by
  intro words statement text
  have hwords : ∀ word ∈ words, IsWord word := by decide
  have hstatement : statement ∈ Script.statements text := by decide
  exact ⟨hwords, ofStatement_toStatement_iff.2.1 words hwords,
    hstatement, ofStatement_toStatement_iff.2.2 text statement hstatement⟩

/-- An empty clause, and a semicolon that is not the last character of the statement. -/
example : ¬IsCanonical { name := "a", table := "t", inside := some [] } ∧
    IsCanonical { name := "a", table := "t;", inside := some "b" } := by decide

end FieldDefinition

end SurrealZod
