import SurrealZod.Proofs.Field.Reading
import SurrealZod.Script.FieldStatement

/-! Field statements in every spelling. Behind the table's name a statement is a sequence of items, and the normal
form keeps those that are clauses of a slot, whatever stands between them. What is read from it are thus the words
of these clauses. -/

namespace SurrealZod

open Text

namespace Script

/-- The words that the normal form drops behind the table's name, alone or with what follows them. -/
def droppedKeywords : List Text := ["FLEXIBLE", "READONLY", "PERMISSIONS", "COMMENT"]

/-- A part of a statement behind the table's name. -/
inductive FieldItem where
  /-- A clause of a slot. -/
  | kept (clause : Clause)
  | flag (word : Text)
  /-- A clause without a slot. -/
  | dropped (keyword : Text) (words : List Text)

namespace FieldItem

def written : FieldItem → List Text
  | .kept clause => clause.written
  | .flag word => [word]
  | .dropped keyword words => keyword :: words

def clause? : FieldItem → Option Clause
  | .kept clause => some clause
  | _ => none

/-- Whether an item is what it stands for. A dropped clause goes on up to the next keyword of a slot, over flags and
over other dropped clauses. -/
inductive Valid : FieldItem → Prop where
  | kept {clause : Clause} (hslot : clause.slot ∈ Slot.clauses) (hreads : clause.Reads)
      (hwords : ∀ word ∈ clause.words, upper word ∉ droppedKeywords) : Valid (.kept clause)
  | flag {word : Text} (h : upper word ∈ (["FLEXIBLE", "READONLY"] : List Text)) : Valid (.flag word)
  | dropped {keyword : Text} {words : List Text} (h : upper keyword ∈ (["PERMISSIONS", "COMMENT"] : List Text))
      (hwords : ∀ word ∈ words, ∀ slot, WordClass.of word ≠ .opens slot) : Valid (.dropped keyword words)

end FieldItem

/-- A field statement in parts. -/
structure FieldSpelling where
  define : Text
  field : Text
  modifier : List Text
  path : Text
  on : Text
  tableKeyword : Option Text
  table : Text
  items : List FieldItem

namespace FieldSpelling

def words (spelling : FieldSpelling) : List Text :=
  spelling.define :: spelling.field :: (spelling.modifier ++ spelling.path :: spelling.on ::
    (spelling.tableKeyword.toList ++ spelling.table :: spelling.items.flatMap FieldItem.written))

def clauses (spelling : FieldSpelling) : List Clause := spelling.items.filterMap FieldItem.clause?

/-- Whether the parts are what they stand for. A path that could be taken for the modifier needs one before it. -/
structure Valid (spelling : FieldSpelling) : Prop where
  words : ∀ word ∈ spelling.words, IsWord word
  define : upper spelling.define = "DEFINE"
  field : upper spelling.field = "FIELD"
  modifier : spelling.modifier.map upper ∈ ([[], ["OVERWRITE"], ["IF", "NOT", "EXISTS"]] : List (List Text))
  path : WordClass.of spelling.path = .plain
  path_ne : spelling.modifier = [] → upper spelling.path ≠ "OVERWRITE"
  on : upper spelling.on = "ON"
  tableKeyword : ∀ word ∈ spelling.tableKeyword, upper word = "TABLE"
  table : WordClass.of spelling.table = .plain
  items : ∀ item ∈ spelling.items, item.Valid

end FieldSpelling

variable {position : Nat} {stage next : FieldStage} {word : Text} {rest : List Text}

/-! ### Single words -/

/-- Behind the place of the modifier the position does not matter. -/
theorem normalWords_succ {words : List Text} (h : 2 < position) (skipped : Nat) (stage : FieldStage) :
    normalWords (position + 1) skipped stage words = normalWords position skipped stage words := by
  induction words generalizing position skipped stage with
  | nil => simp only [normalWords]
  | cons word words ih =>
      have hnext := fun skipped stage => ih (Nat.lt_succ_of_lt h) skipped stage
      cases skipped with
      | succ more => exact hnext more stage
      | zero =>
          simp only [normalWords, Nat.ne_of_gt h, Nat.ne_of_gt (Nat.lt_succ_of_lt h), if_false, hnext]

theorem normalWords_kept (hposition : position ≠ 2) (h : stage.afterDropped? word = none) :
    normalWords position 0 stage (word :: rest) =
      withTable stage word rest ++ normalWords (position + 1) 0 (stage.afterKept word) rest := by
  rw [normalWords, h]
  simp only [if_neg hposition]

theorem normalWords_clause_word {dropping : Bool} (hposition : 2 < position)
    (h : (FieldStage.clauses dropping).afterDropped? word = none) :
    normalWords position 0 (.clauses dropping) (word :: rest) =
      word :: normalWords position 0 (.clauses false) rest := by
  rw [normalWords_kept (Nat.ne_of_gt hposition) h, normalWords_succ hposition]
  rfl

theorem normalWords_dropped {dropping next : Bool} (hposition : 2 < position)
    (h : (FieldStage.clauses dropping).afterDropped? word = some (.clauses next)) :
    normalWords position 0 (.clauses dropping) (word :: rest) = normalWords position 0 (.clauses next) rest := by
  rw [normalWords, h]
  exact normalWords_succ hposition 0 _

theorem upper_ne_of_plain (h : WordClass.of word = .plain) : upper word ≠ "ON" ∧ upper word ≠ "TABLE" := by
  have hupper {keyword : Text} (hself : upper keyword = keyword) (hkeyword : WordClass.of keyword ≠ .plain) :
      upper word ≠ keyword := fun heq => hkeyword (WordClass.of_eq_of_upper heq hself ▸ h)
  exact ⟨hupper (by decide) (by decide), hupper (by decide) (by decide)⟩

theorem upper_not_mem_dropped {slot : Slot} (h : WordClass.of word = .opens slot) : upper word ∉ droppedKeywords := by
  rw [WordClass.of_eq_opens_iff.mp h]
  cases slot <;> decide

namespace FieldStage

theorem afterDropped?_eq_none {dropping : Bool} (h : upper word ∉ droppedKeywords)
    (hkept : dropping = false ∨ ∃ slot, WordClass.of word = .opens slot) :
    (clauses dropping).afterDropped? word = none := by
  simp only [droppedKeywords, List.mem_cons, List.not_mem_nil, or_false, not_or] at h
  obtain ⟨hflexible, hreadonly, hpermissions, hcomment⟩ := h
  simp only [afterDropped?, hflexible, hreadonly, hpermissions, hcomment, or_self, if_false]
  rcases hkept with rfl | ⟨slot, hslot⟩
  · split <;> rfl
  · rw [hslot]

theorem afterDropped?_flag {dropping : Bool} (h : upper word ∈ (["FLEXIBLE", "READONLY"] : List Text)) :
    (clauses dropping).afterDropped? word = some (clauses dropping) := by
  have hflag : upper word = "FLEXIBLE" ∨ upper word = "READONLY" := by simpa using h
  simp only [afterDropped?, if_pos hflag]

theorem afterDropped?_dropped {dropping : Bool} (h : upper word ∈ (["PERMISSIONS", "COMMENT"] : List Text)) :
    (clauses dropping).afterDropped? word = some (clauses true) := by
  have hflag : ∀ keyword ∈ (["PERMISSIONS", "COMMENT"] : List Text), ¬(keyword = "FLEXIBLE" ∨ keyword = "READONLY") := by
    decide
  have hdropped : upper word = "PERMISSIONS" ∨ upper word = "COMMENT" := by simpa using h
  simp only [afterDropped?, if_neg (hflag _ h), if_pos hdropped]

/-- A dropped clause goes on with any word that opens no slot. -/
theorem afterDropped?_of_not_opens (h : ∀ slot, WordClass.of word ≠ .opens slot) :
    (clauses true).afterDropped? word = some (clauses true) := by
  simp only [afterDropped?]
  cases hclass : WordClass.of word with
  | opens slot => exact absurd hclass (h slot)
  | neutral | plain => split_ifs <;> rfl

end FieldStage

/-- The normal form has no words of its own but `TABLE`. -/
theorem of_mem_normalWords {words : List Text} {skipped : Nat} (h : word ∈ normalWords position skipped stage words) :
    word ∈ words ∨ word = "TABLE" := by
  induction words generalizing position skipped stage with
  | nil =>
      rw [normalWords] at h
      cases h
  | cons first words ih =>
      have hrest {position skipped : Nat} {stage : FieldStage} (h : word ∈ normalWords position skipped stage words) :
          word ∈ first :: words ∨ word = "TABLE" := (ih h).imp_left (List.mem_cons_of_mem first)
      rw [normalWords.eq_def] at h
      dsimp only at h
      split at h
      · exact hrest h
      · split at h
        · exact hrest h
        · split at h
          · exact hrest h
          · refine (List.mem_append.mp h).elim (fun hhead => ?_) hrest
            rw [withTable] at hhead
            split at hhead
            · refine (List.mem_cons.mp hhead).imp (fun heq => ?_) List.mem_singleton.mp
              exact List.mem_cons.mpr (Or.inl heq)
            · exact Or.inl (List.mem_cons.mpr (Or.inl (List.mem_singleton.mp hhead)))

/-! ### Items -/

theorem normalWords_plain {words : List Text} (hposition : 2 < position)
    (h : ∀ word ∈ words, upper word ∉ droppedKeywords) :
    normalWords position 0 (.clauses false) (words ++ rest) =
      words ++ normalWords position 0 (.clauses false) rest := by
  induction words with
  | nil => rfl
  | cons word words ih =>
      have hword := FieldStage.afterDropped?_eq_none (h word List.mem_cons_self) (Or.inl rfl)
      rw [List.cons_append, normalWords_clause_word hposition hword,
        ih fun other hother => h other (List.mem_cons_of_mem _ hother), List.cons_append]

theorem normalWords_not_opens {words : List Text} (hposition : 2 < position)
    (h : ∀ word ∈ words, ∀ slot, WordClass.of word ≠ .opens slot) :
    normalWords position 0 (.clauses true) (words ++ rest) = normalWords position 0 (.clauses true) rest := by
  induction words with
  | nil => rfl
  | cons word words ih =>
      have hword := FieldStage.afterDropped?_of_not_opens (h word List.mem_cons_self)
      rw [List.cons_append, normalWords_dropped hposition hword,
        ih fun other hother => h other (List.mem_cons_of_mem _ hother)]

/-- What the normal form keeps of one item. The item also says whether what follows is dropped. -/
theorem normalWords_item {item : FieldItem} (hposition : 2 < position) (h : item.Valid) (dropping : Bool) :
    ∃ next, ∀ rest, normalWords position 0 (.clauses dropping) (item.written ++ rest) =
      item.clause?.elim [] Clause.written ++ normalWords position 0 (.clauses next) rest := by
  cases h with
  | @kept clause hslot hreads hwords =>
      have hkeyword : (FieldStage.clauses dropping).afterDropped? clause.keyword = none :=
        FieldStage.afterDropped?_eq_none (upper_not_mem_dropped hreads.opens) (Or.inr ⟨clause.slot, hreads.opens⟩)
      refine ⟨false, fun rest => ?_⟩
      rw [FieldItem.written, Clause.written, List.cons_append, normalWords_clause_word hposition hkeyword,
        normalWords_plain hposition hwords]
      rfl
  | flag hflag => exact ⟨dropping, fun rest => normalWords_dropped hposition (FieldStage.afterDropped?_flag hflag)⟩
  | dropped hkeyword hwords =>
      refine ⟨true, fun rest => ?_⟩
      rw [FieldItem.written, List.cons_append,
        normalWords_dropped hposition (FieldStage.afterDropped?_dropped hkeyword), normalWords_not_opens hposition hwords]
      rfl

/-- What the normal form keeps of all items is the clauses of slots among them. -/
theorem normalWords_items {items : List FieldItem} (hposition : 2 < position) (h : ∀ item ∈ items, item.Valid)
    (dropping : Bool) : normalWords position 0 (.clauses dropping) (items.flatMap FieldItem.written) =
      (items.filterMap FieldItem.clause?).flatMap Clause.written := by
  induction items generalizing dropping with
  | nil => rfl
  | cons item items ih =>
      obtain ⟨next, hitem⟩ := normalWords_item hposition (h item List.mem_cons_self) dropping
      rw [List.flatMap_cons, hitem, ih fun other hother => h other (List.mem_cons_of_mem _ hother)]
      cases hclause : item.clause? with
      | none => rw [List.filterMap_cons_none hclause]; rfl
      | some clause => rw [List.filterMap_cons_some hclause]; rfl

/-! ### The head of a statement -/

theorem normalWords_path_word (hposition : position ≠ 2) (h : upper word ≠ "ON") :
    normalWords position 0 .path (word :: rest) = word :: normalWords (position + 1) 0 .path rest := by
  rw [normalWords_kept hposition rfl, withTable, if_neg fun hon => h hon.2.1, FieldStage.afterKept, if_neg h]
  rfl

/-- A path in the place of a modifier is not taken for one, since `ON` follows it. -/
theorem modifierLength_path {path on : Text} (hne : upper path ≠ "OVERWRITE") (hon : upper on = "ON") :
    modifierLength (path :: on :: rest) = 0 := by
  rw [modifierLength, if_neg hne, if_neg]
  rintro ⟨-, hwords⟩
  rw [List.take_succ_cons, List.map_cons, hon] at hwords
  exact absurd (List.cons.inj hwords).1 (by decide)

theorem normalWords_modifier_word {more : Nat} (h : modifierLength (word :: rest) = more + 1) :
    normalWords 2 0 .path (word :: rest) = normalWords 3 more .path rest := by
  simp only [normalWords, FieldStage.afterDropped?, if_true, h]

/-- The modifier is dropped from in front of the path. -/
theorem normalWords_modifier {modifier : List Text} {path on : Text}
    (h : modifier.map upper ∈ ([[], ["OVERWRITE"], ["IF", "NOT", "EXISTS"]] : List (List Text)))
    (hpath : upper path ≠ "ON") (hne : modifier = [] → upper path ≠ "OVERWRITE") (hon : upper on = "ON") :
    ∃ position, 2 < position ∧ normalWords 2 0 .path (modifier ++ path :: on :: rest) =
      path :: normalWords position 0 .path (on :: rest) := by
  have hcases : modifier.map upper = [] ∨ modifier.map upper = ["OVERWRITE"] ∨
      modifier.map upper = ["IF", "NOT", "EXISTS"] := by simpa using h
  rcases hcases with hnone | hoverwrite | hif
  · obtain rfl := List.map_eq_nil_iff.mp hnone
    refine ⟨3, by decide, ?_⟩
    simp only [List.nil_append, normalWords, FieldStage.afterDropped?, if_true, modifierLength_path (hne rfl) hon,
      withTable, hpath, false_and, and_false, if_false, FieldStage.afterKept]
    rfl
  · obtain ⟨first, rfl, hfirst⟩ := List.map_eq_singleton_iff.mp hoverwrite
    have hlength : modifierLength (first :: path :: on :: rest) = 1 := by rw [modifierLength, if_pos hfirst]
    refine ⟨4, by decide, ?_⟩
    rw [List.singleton_append, normalWords_modifier_word hlength]
    exact normalWords_path_word (by decide) hpath
  · obtain ⟨first, others, rfl, hfirst, hothers⟩ := List.map_eq_cons_iff.mp hif
    obtain ⟨second, last, rfl, hsecond, hlast⟩ := List.map_eq_cons_iff.mp hothers
    obtain ⟨third, rfl, hthird⟩ := List.map_eq_singleton_iff.mp hlast
    have hlength : modifierLength (first :: second :: third :: path :: on :: rest) = 3 := by
      rw [modifierLength, hfirst, if_neg (by decide), if_pos]
      exact ⟨rfl, by rw [List.take_succ_cons, List.take_succ_cons, List.take_zero, List.map_cons, List.map_singleton,
        hsecond, hthird]⟩
    have hbehind : normalWords 5 0 .path (path :: on :: rest) = path :: normalWords 6 0 .path (on :: rest) :=
      normalWords_path_word (by decide) hpath
    exact ⟨6, by decide, (normalWords_modifier_word hlength).trans hbehind⟩

/-- The word `TABLE` is written behind `ON` if it is not there. -/
theorem normalWords_table {tableKeyword : Option Text} {on table : Text} (hposition : 2 < position)
    (hon : upper on = "ON") (hkeyword : ∀ word ∈ tableKeyword, upper word = "TABLE")
    (htable : WordClass.of table = .plain) :
    normalWords position 0 .path (on :: (tableKeyword.toList ++ table :: rest)) =
      on :: tableKeyword.getD "TABLE" :: table :: normalWords position 0 (.clauses false) rest := by
  obtain ⟨hnoton, hnottable⟩ := upper_ne_of_plain htable
  have hsucc : ∀ stage words, normalWords (position + 1) 0 stage words = normalWords position 0 stage words :=
    fun stage words => normalWords_succ hposition 0 stage
  have hlast : normalWords position 0 .table (table :: rest) =
      table :: normalWords position 0 (.clauses false) rest := by
    rw [normalWords_kept (Nat.ne_of_gt hposition) rfl, hsucc, FieldStage.afterKept,
      if_neg (not_or.mpr ⟨hnoton, hnottable⟩)]
    rfl
  rw [normalWords_kept (Nat.ne_of_gt hposition) rfl, hsucc, FieldStage.afterKept, if_pos hon]
  cases tableKeyword with
  | none =>
      have hhead : (table :: rest).head?.map upper ≠ some "TABLE" := fun h => hnottable (Option.some_inj.mp h)
      rw [Option.toList_none, List.nil_append, withTable, if_pos ⟨rfl, hon, hhead⟩, hlast]
      rfl
  | some keyword =>
      have hupper := hkeyword keyword rfl
      have hhead : ¬((keyword :: table :: rest).head?.map upper ≠ some "TABLE") :=
        not_not.mpr (congrArg some hupper)
      rw [Option.toList_some, List.singleton_append, withTable, if_neg fun h => hhead h.2.2,
        normalWords_kept (Nat.ne_of_gt hposition) rfl, hsucc, FieldStage.afterKept, if_pos (Or.inr hupper), hlast]
      rfl

namespace FieldSpelling

variable {spelling : FieldSpelling}

def nameClause (spelling : FieldSpelling) : Clause :=
  { slot := .name, keyword := spelling.field, words := [spelling.path] }

def tableClause (spelling : FieldSpelling) : Clause :=
  { slot := .table, keyword := spelling.tableKeyword.getD "TABLE", words := [spelling.table] }

/-- The words of the normal form, clause by clause. -/
def normalForm (spelling : FieldSpelling) : List Text :=
  spelling.define :: (spelling.nameClause.written ++
    spelling.on :: (spelling.tableClause :: spelling.clauses).flatMap Clause.written)

theorem Valid.normalWords_words (h : spelling.Valid) : normalWords 0 0 .path spelling.words = spelling.normalForm := by
  have hpath := (upper_ne_of_plain h.path).1
  obtain ⟨position, hposition, hmodifier⟩ := normalWords_modifier h.modifier hpath h.path_ne h.on
  rw [FieldSpelling.words, normalWords_path_word (by decide) (by rw [h.define]; decide),
    normalWords_path_word (by decide) (by rw [h.field]; decide), hmodifier,
    normalWords_table hposition h.on h.tableKeyword h.table, normalWords_items hposition h.items]
  rfl

theorem Valid.of_mem_clauses (h : spelling.Valid) {clause : Clause} (hclause : clause ∈ spelling.clauses) :
    clause.slot ∈ Slot.clauses ∧ clause.Reads := by
  obtain ⟨item, hitem, hsome⟩ := List.mem_filterMap.mp hclause
  cases h.items item hitem with
  | kept hslot hreads _ => exact Option.some_inj.mp hsome ▸ ⟨hslot, hreads⟩
  | flag _ | dropped _ _ => cases hsome

theorem Valid.reads (h : spelling.Valid) :
    ∀ clause ∈ spelling.nameClause :: spelling.tableClause :: spelling.clauses, clause.Reads := by
  intro clause hclause
  rcases List.mem_cons.mp hclause with rfl | hclause
  · exact ⟨WordClass.of_eq_opens_iff.mpr h.field, fun word hword => List.mem_singleton.mp hword ▸ h.path⟩
  · rcases List.mem_cons.mp hclause with rfl | hclause
    · refine ⟨WordClass.of_eq_opens_iff.mpr ?_, fun word hword => List.mem_singleton.mp hword ▸ h.table⟩
      cases hkeyword : spelling.tableKeyword with
      | none =>
          simp only [tableClause, hkeyword]
          decide
      | some keyword =>
          simp only [tableClause, hkeyword]
          exact h.tableKeyword keyword hkeyword
    · exact (h.of_mem_clauses hclause).2

theorem Valid.isWord (h : spelling.Valid) : ∀ word ∈ spelling.normalForm, IsWord word := by
  intro word hword
  rw [← h.normalWords_words] at hword
  rcases of_mem_normalWords hword with hmem | rfl
  · exact h.words word hmem
  · decide

theorem mem_normalForm {clause : Clause} {word : Text}
    (hclause : clause ∈ spelling.nameClause :: spelling.tableClause :: spelling.clauses) (hword : word ∈ clause.words) :
    word ∈ spelling.normalForm := by
  have hwritten : word ∈ clause.written := List.mem_cons_of_mem _ hword
  refine List.mem_cons_of_mem _ (List.mem_append.mpr ?_)
  rcases List.mem_cons.mp hclause with rfl | hclause
  · exact Or.inl hwritten
  · exact Or.inr (List.mem_cons_of_mem _ (List.mem_flatMap.mpr ⟨clause, hclause, hwritten⟩))

/-- The words that a spelling has for a slot. -/
theorem Valid.wordsOf (h : spelling.Valid) (slot : Slot) :
    Clause.wordsOf slot (spelling.nameClause :: spelling.tableClause :: spelling.clauses) =
      match slot with
      | .name => [spelling.path]
      | .table => [spelling.table]
      | slot => Clause.wordsOf slot spelling.clauses := by
  have hnone {slot : Slot} (hslot : slot ∉ Slot.clauses) : Clause.wordsOf slot spelling.clauses = [] :=
    Clause.wordsOf_eq_nil fun clause hclause heq => hslot (heq ▸ (h.of_mem_clauses hclause).1)
  rw [Clause.wordsOf_cons, Clause.wordsOf_cons]
  have hname : Clause.wordsOf .name spelling.clauses = [] := hnone (by decide)
  have htable : Clause.wordsOf .table spelling.clauses = [] := hnone (by decide)
  cases slot with
  | name => simp [nameClause, tableClause, hname]
  | table => simp [nameClause, tableClause, htable]
  | fieldType | value | defaultValue | assert | inside => simp [nameClause, tableClause]

/-- The text that is read into a slot from the normal form of a spelling. -/
theorem Valid.get?_ofStatement (h : spelling.Valid) {slot : Slot} {words : List Text}
    (hwords : Clause.wordsOf slot (spelling.nameClause :: spelling.tableClause :: spelling.clauses) = words) :
    (FieldDefinition.ofStatement (normalizeField (join [' '] spelling.words))).get? slot =
      if words = [] then ({} : FieldDefinition).get? slot else some (join [' '] words) := by
  have hsplit := splitOn_join_words h.words (List.cons_ne_nil _ _)
  have hnormal := splitOn_join_words h.isWord (List.cons_ne_nil _ _)
  have hstatement : FieldDefinition.statementWords (join [' '] spelling.normalForm) = spelling.normalForm :=
    (FieldDefinition.statementWords_of_words (by rw [hnormal]; exact h.isWord)).trans hnormal
  have hdefine : WordClass.of spelling.define = .neutral :=
    (WordClass.of_eq_of_upper h.define (by decide)).trans (by decide)
  have hon : WordClass.of spelling.on = .neutral := (WordClass.of_eq_of_upper h.on (by decide)).trans (by decide)
  rw [FieldDefinition.ofStatement, normalizeField, hsplit, h.normalWords_words, hstatement, FieldSpelling.normalForm,
    FieldDefinition.get?_readWords_statement hdefine hon h.reads, hwords]
  by_cases hnil : words = []
  · rw [if_pos hnil, hnil]
    rfl
  · have hmem : ∀ word ∈ words, IsWord word := by
      intro word hword
      obtain ⟨clause, hclause, hword⟩ := Clause.exists_of_mem_wordsOf (hwords ▸ hword)
      exact h.isWord word (mem_normalForm hclause hword)
    have hempty : (({} : FieldDefinition).get? slot).getD [] = [] := by cases slot <;> rfl
    rw [if_neg hnil]
    refine FieldDefinition.get?_appendAll_eq_join hnil hempty
      (fun word hword => ⟨(hmem word hword).ne_nil, (hmem word hword).endsBlank⟩) (beginsBlank_of_words ?_)
    rw [splitOn_join_words hmem hnil]
    exact hmem

/-- Every spelling of a field statement is read as its path, its table and the words of its clauses. -/
theorem ofStatement_normalizeField (spelling : FieldSpelling) (h : spelling.Valid) :
    let definition := FieldDefinition.ofStatement (normalizeField (join [' '] spelling.words))
    definition.name = spelling.path ∧ definition.table = spelling.table ∧
      ∀ slot ∈ Slot.clauses, definition.get? slot =
        if Clause.wordsOf slot spelling.clauses = [] then none
        else some (join [' '] (Clause.wordsOf slot spelling.clauses)) := by
  intro definition
  have hname : definition.get? .name = some (join [' '] [spelling.path]) :=
    (h.get?_ofStatement (h.wordsOf .name)).trans (if_neg (List.cons_ne_nil _ _))
  have htable : definition.get? .table = some (join [' '] [spelling.table]) :=
    (h.get?_ofStatement (h.wordsOf .table)).trans (if_neg (List.cons_ne_nil _ _))
  have hsingle (word : Text) : join [' '] [word] = word := List.intercalate_singleton
  rw [hsingle] at hname htable
  refine ⟨Option.some_inj.mp hname, Option.some_inj.mp htable, fun slot hslot => ?_⟩
  cases slot with
  | name | table => exact absurd hslot (by decide)
  | fieldType | value | defaultValue | assert | inside => exact h.get?_ofStatement (h.wordsOf _)

theorem ofStatement_normalizeField_of_readonly_table :
    let spelling : FieldSpelling :=
      { define := "define", field := "Field", modifier := ["if", "NOT", "exists"], path := "overwrite", on := "ON"
        tableKeyword := none, table := "readonly"
        items := [.flag "FLEXIBLE", .kept ⟨.fieldType, "type", ["array"]⟩,
          .dropped "COMMENT" ["on", "Readonly", "permissions"], .flag "readonly",
          .kept ⟨.inside, "Inside", ["['x',", "'y']"]⟩, .kept ⟨.fieldType, "TYPE", ["|", "int"]⟩] }
    let definition := FieldDefinition.ofStatement (normalizeField (join [' '] spelling.words))
    spelling.Valid ∧ definition.name = "overwrite" ∧ definition.table = "readonly" ∧
      definition.fieldType = some "array | int" ∧ definition.inside = some "['x', 'y']" ∧ definition.value = none := by
  intro spelling definition
  have hitems : ∀ item ∈ spelling.items, item.Valid := by
    have hkept {clause : Clause} (hslot : clause.slot ∈ Slot.clauses)
        (hopens : WordClass.of clause.keyword = .opens clause.slot)
        (hwords : ∀ word ∈ clause.words, WordClass.of word = .plain ∧ upper word ∉ droppedKeywords) :
        FieldItem.Valid (.kept clause) :=
      .kept hslot ⟨hopens, fun word hword => (hwords word hword).1⟩ fun word hword => (hwords word hword).2
    have hcomment : ∀ word ∈ (["on", "Readonly", "permissions"] : List Text), ∀ slot ∈ Slot.all,
        WordClass.of word ≠ .opens slot := by decide
    simp only [spelling, List.forall_mem_cons]
    exact ⟨.flag (by decide), hkept (by decide) (by decide) (by decide),
      .dropped (by decide) fun word hword slot => hcomment word hword slot (Slot.mem_all slot), .flag (by decide),
      hkept (by decide) (by decide) (by decide), hkept (by decide) (by decide) (by decide), by simp⟩
  have hvalid : spelling.Valid :=
    { words := by decide, define := by decide, field := by decide, modifier := by decide, path := by decide
      path_ne := by decide, on := by decide, tableKeyword := by decide, table := by decide, items := hitems }
  obtain ⟨hname, htable, hclauses⟩ := ofStatement_normalizeField spelling hvalid
  exact ⟨hvalid, hname, htable, (hclauses .fieldType (by decide)).trans (by decide),
    (hclauses .inside (by decide)).trans (by decide), (hclauses .value (by decide)).trans (by decide)⟩

end FieldSpelling

end Script

end SurrealZod
