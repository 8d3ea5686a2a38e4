import Mathlib.Data.List.Induction
import Mathlib.Data.List.Nodup
import SurrealZod.Proofs.Script.Statements
import SurrealZod.Proofs.Tree.Order
import SurrealZod.Script.Tables

/-! The tables of a schema text. Each statement mentions at most one table and changes that one alone, so the tables
are described by the statements that mention them: a table comes at its first mention, has the last of its
definitions and all of its fields, in order. -/

namespace SurrealZod

open Text

/-- A table with what a statement says of it. -/
def TableStatements.take (statement : Text) (table : TableStatements) : TableStatements :=
  match Script.declaration statement with
  | .table _ => { table with definition := statement }
  | .field => { table with fields := table.fields ++ [Script.normalizeField statement] }
  | .other => table

namespace Script

/-- The table that a statement mentions. -/
def mentioned? (statement : Text) : Option Text :=
  match declaration statement with
  | .table name => some name
  | .field =>
    match (FieldDefinition.ofStatement (normalizeField statement)).table with
    | [] => none
    | name => some name
  | .other => none

/-- The last statement that defines a table, empty if there is none. -/
def definitionIn (name : Text) (statements : List Text) : Text :=
  ((statements.filter (declaration · = .table name)).getLast?).getD []

/-- The field statements in normal form. -/
def fieldStatements (statements : List Text) : List Text :=
  (statements.filter (declaration · = .field)).map normalizeField

/-- The field statements of a table, in normal form. -/
def fieldsIn (name : Text) (statements : List Text) : List Text :=
  (fieldStatements statements).filter fun field => (FieldDefinition.ofStatement field).table = name

def tableIn (statements : List Text) (name : Text) : TableStatements :=
  { name, definition := definitionIn name statements, fields := fieldsIn name statements }

/-- The names of the tables, in order of first mention. -/
def mentionedIn (statements : List Text) : List Text := (statements.filterMap mentioned?).eraseDups

variable {name statement : Text} {statements : List Text}

/-! ### Lists without repetitions -/

theorem eraseDups_concat {α : Type} [BEq α] [LawfulBEq α] (as : List α) (a : α) :
    (as ++ [a]).eraseDups = if a ∈ as then as.eraseDups else as.eraseDups ++ [a] := by
  rw [List.eraseDups_append, List.removeAll, List.filter_singleton]
  by_cases h : a ∈ as <;> simp [h, List.eraseDups_cons]

theorem nodup_eraseDups {α : Type} [BEq α] [LawfulBEq α] (as : List α) : as.eraseDups.Nodup := by
  induction as using List.reverseRecOn with
  | nil => exact List.nodup_nil
  | append_singleton as a ih =>
      rw [eraseDups_concat]
      split
      · exact ih
      · rename_i hmem
        refine List.nodup_append.mpr ⟨ih, List.nodup_singleton a, fun b hb c hc heq => hmem ?_⟩
        rw [← List.mem_singleton.mp hc, ← heq]
        exact List.mem_eraseDups.mp hb

/-! ### One statement -/

theorem addStatement_eq (tables : List TableStatements) (statement : Text) : addStatement tables statement =
    (mentioned? statement).elim tables fun name => modifyTable name (·.take statement) tables := by
  unfold addStatement mentioned? TableStatements.take
  cases declaration statement with
  | table name => rfl
  | field =>
      dsimp only
      cases (FieldDefinition.ofStatement (normalizeField statement)).table <;> rfl
  | other => rfl

theorem mentioned?_of_field (h : declaration statement = .field) (hname : name ≠ []) :
    mentioned? statement = some name ↔ (FieldDefinition.ofStatement (normalizeField statement)).table = name := by
  rw [mentioned?, h]
  dsimp only
  split
  · rename_i hnil
    rw [hnil]
    exact ⟨fun hsome => absurd hsome (Option.some_ne_none name).symm, fun heq => absurd heq.symm hname⟩
  · exact Option.some_inj

/-- A statement changes the table that it mentions. -/
theorem tableIn_concat (hname : name ≠ []) : tableIn (statements ++ [statement]) name =
    if mentioned? statement = some name then (tableIn statements name).take statement else tableIn statements name := by
  simp only [tableIn, definitionIn, fieldsIn, fieldStatements, List.filter_append, List.map_append]
  cases hdeclaration : declaration statement with
  | table other =>
      have hmentioned : mentioned? statement = some other := by rw [mentioned?, hdeclaration]
      by_cases heq : other = name
      · subst heq
        simp [hmentioned, hdeclaration, TableStatements.take]
      · simp [hmentioned, hdeclaration, heq]
  | field =>
      have hmentioned := mentioned?_of_field hdeclaration hname
      by_cases heq : (FieldDefinition.ofStatement (normalizeField statement)).table = name
      · simp [hmentioned, hdeclaration, heq, TableStatements.take]
      · simp [hmentioned, hdeclaration, heq]
  | other =>
      have hmentioned : mentioned? statement = none := by rw [mentioned?, hdeclaration]
      simp [hmentioned, hdeclaration]

theorem tableIn_of_not_mem (hname : name ≠ []) (h : name ∉ statements.filterMap mentioned?) :
    tableIn statements name = { name } := by
  induction statements using List.reverseRecOn with
  | nil => rfl
  | append_singleton statements statement ih =>
      rw [List.filterMap_append, List.mem_append, not_or] at h
      have hnot : mentioned? statement ≠ some name := fun hsome => h.2 (List.mem_filterMap.mpr ⟨_, List.mem_cons_self, hsome⟩)
      rw [tableIn_concat hname, if_neg hnot, ih h.1]

/-- Changing the table of a name changes one entry, or adds one if the name is not there yet. -/
theorem modifyTable_map {names : List Text} {build built : Text → TableStatements}
    {change : TableStatements → TableStatements} (hname : ∀ name, (build name).name = name) (hnodup : names.Nodup)
    (hself : built name = change (if name ∈ names then build name else { name }))
    (hother : ∀ other ∈ names, other ≠ name → built other = build other) :
    modifyTable name change (names.map build) = (if name ∈ names then names else names ++ [name]).map built := by
  induction names with
  | nil =>
      rw [if_neg List.not_mem_nil] at hself
      exact congrArg (fun table => [table]) hself.symm
  | cons first names ih =>
      obtain ⟨hfirst, hrest⟩ := List.nodup_cons.mp hnodup
      rw [List.map_cons, modifyTable, hname]
      by_cases heq : first = name
      · subst heq
        have hsame : names.map build = names.map built := List.map_congr_left fun other hmem =>
          (hother other (List.mem_cons_of_mem _ hmem) fun heq => hfirst (heq ▸ hmem)).symm
        rw [if_pos List.mem_cons_self] at hself
        rw [if_pos rfl, if_pos List.mem_cons_self, List.map_cons, hself, hsame]
      · have hmem : name ∈ first :: names ↔ name ∈ names := by simp [Ne.symm heq]
        simp only [hmem] at hself ⊢
        rw [if_neg heq, ih hrest hself fun other hother' => hother other (List.mem_cons_of_mem _ hother'),
          ← hother first List.mem_cons_self heq]
        split <;> rfl

/-! ### All statements -/

theorem mentionedIn_concat (statements : List Text) (statement : Text) : mentionedIn (statements ++ [statement]) =
    (mentioned? statement).elim (mentionedIn statements) fun name =>
      if name ∈ statements.filterMap mentioned? then mentionedIn statements else mentionedIn statements ++ [name] := by
  rw [mentionedIn, List.filterMap_append]
  cases hmentioned : mentioned? statement with
  | none => simp [hmentioned, mentionedIn]
  | some name =>
      rw [List.filterMap_cons_some hmentioned, List.filterMap_nil, eraseDups_concat]
      rfl

/-- The tables that the statements list, each with what is said of it. -/
theorem foldl_addStatement (h : ∀ statement ∈ statements, mentioned? statement ≠ some []) :
    statements.foldl addStatement [] = (mentionedIn statements).map (tableIn statements) := by
  induction statements using List.reverseRecOn with
  | nil => rfl
  | append_singleton statements statement ih =>
      have hbefore := ih fun other hother => h other (List.mem_append_left _ hother)
      have hnames : ∀ name ∈ statements.filterMap mentioned?, name ≠ [] := by
        rintro name hname rfl
        obtain ⟨other, hother, hsome⟩ := List.mem_filterMap.mp hname
        exact h other (List.mem_append_left _ hother) hsome
      have hconcat : ∀ name ∈ mentionedIn statements, tableIn (statements ++ [statement]) name =
          if mentioned? statement = some name then (tableIn statements name).take statement
          else tableIn statements name :=
        fun name hname => tableIn_concat (hnames name (List.mem_eraseDups.mp hname))
      rw [List.foldl_append, hbefore, List.foldl_cons, List.foldl_nil, addStatement_eq, mentionedIn_concat]
      cases hmentioned : mentioned? statement with
      | none =>
          refine List.map_congr_left fun name hname => ?_
          rw [hconcat name hname, if_neg (by rw [hmentioned]; exact (Option.some_ne_none name).symm)]
      | some name =>
          have hne : name ≠ [] := fun heq => h statement (List.mem_append_right _ List.mem_cons_self) (heq ▸ hmentioned)
          have hmem : name ∈ mentionedIn statements ↔ name ∈ statements.filterMap mentioned? := List.mem_eraseDups
          simp only [Option.elim, ← hmem]
          refine modifyTable_map (fun _ => rfl) (nodup_eraseDups _) ?_ fun other hother hdiffer => ?_
          · rw [tableIn_concat hne, if_pos hmentioned]
            split
            · rfl
            · rename_i hnot
              rw [tableIn_of_not_mem hne fun hname => hnot (hmem.mpr hname)]
          · rw [hconcat other hother, if_neg fun hsome => hdiffer (Option.some_inj.mp (hsome.symm.trans hmentioned))]

/-! ### The tables of a text -/

theorem mem_of_tableName? {words : List Text} (h : tableName? words = some name) : name ∈ words := by
  unfold tableName? at h
  split at h
  · cases h
  · cases h
    exact List.mem_cons_self
  · split at h
    · cases h
      exact List.mem_cons_of_mem _ List.mem_cons_self
    · split at h
      · split at h
        · cases h
          simp
        · cases h
          exact List.mem_cons_self
      · cases h
        exact List.mem_cons_self

theorem mem_of_declaration_table (h : declaration statement = .table name) : name ∈ statement.splitOn ' ' := by
  unfold declaration at h
  split at h
  · rename_i define kind rest hwords
    split_ifs at h
    cases hname : tableName? rest with
    | none =>
        rw [hname] at h
        cases h
    | some found =>
        rw [hname] at h
        cases h
        exact hwords ▸ List.mem_cons_of_mem _ (List.mem_cons_of_mem _ (mem_of_tableName? hname))
  · cases h

theorem mentioned?_ne_nil {text : Text} (h : statement ∈ Script.statements text) : mentioned? statement ≠ some [] := by
  intro hnil
  unfold mentioned? at hnil
  split at hnil
  · rename_i hdeclaration
    cases hnil
    exact (isWord_of_mem_statements h (mem_of_declaration_table hdeclaration)).ne_nil rfl
  · split at hnil
    · cases hnil
    · rename_i hne
      exact hne (Option.some_inj.mp hnil)
  · cases hnil

theorem tables_eq (text : Text) :
    tables text = (mentionedIn (Script.statements text)).map (tableIn (Script.statements text)) :=
  foldl_addStatement fun _ => mentioned?_ne_nil

/-- The tables of a schema text: those that are mentioned, each with its definition and all of its fields, which the
tree of the table takes. No field statement with a table is lost or listed twice. -/
theorem tables_grouping (text : Text) :
    let statements := Script.statements text
    let names := (tables text).map (·.name)
    (names = (statements.filterMap mentioned?).eraseDups ∧ names.Nodup ∧ [] ∉ names) ∧
    (∀ table ∈ tables text,
      table.definition = definitionIn table.name statements ∧ table.fields = fieldsIn table.name statements ∧
      (∀ field ∈ table.fields, (FieldDefinition.ofStatement field).table = table.name) ∧
      FieldTree.ofDefinitions table.name (table.fields.map FieldDefinition.ofStatement) =
        (table.fields.map FieldDefinition.ofStatement).foldlM FieldTree.insert (.empty table.name)) ∧
    ∀ field ∈ fieldStatements statements, (FieldDefinition.ofStatement field).table ≠ [] →
      ∃ table ∈ tables text, (∀ other ∈ tables text, field ∈ other.fields ↔ other = table) ∧
        table.fields.count field = (fieldStatements statements).count field := by
  intro statements names
  have hnames : names = mentionedIn statements := by
    have hname : (fun table : TableStatements => table.name) ∘ tableIn statements = id := rfl
    simp only [names, tables_eq, List.map_map, hname, List.map_id, statements]
  have htable {name field : Text} (hfield : field ∈ fieldsIn name statements) :
      (FieldDefinition.ofStatement field).table = name := by simpa using (List.mem_filter.mp hfield).2
  refine ⟨⟨hnames, hnames ▸ nodup_eraseDups _, ?_⟩, ?_, ?_⟩
  · rw [hnames]
    intro hnil
    obtain ⟨statement, hstatement, hsome⟩ := List.mem_filterMap.mp (List.mem_eraseDups.mp hnil)
    exact mentioned?_ne_nil hstatement hsome
  · intro table hlisted
    rw [tables_eq] at hlisted
    obtain ⟨name, -, rfl⟩ := List.mem_map.mp hlisted
    have hnative : FieldTree.native name ((fieldsIn name statements).map FieldDefinition.ofStatement) =
        (fieldsIn name statements).map FieldDefinition.ofStatement := by
      refine List.filter_eq_self.mpr fun definition hdefinition => ?_
      obtain ⟨field, hfield, rfl⟩ := List.mem_map.mp hdefinition
      simp [FieldTree.isForeign, htable hfield]
    refine ⟨rfl, rfl, fun field hfield => htable hfield, ?_⟩
    exact (FieldTree.ofDefinitions_eq_foldlM _ _).trans (by rw [tableIn, hnative])
  · intro field hfield hne
    obtain ⟨statement, hstatement, rfl⟩ := List.mem_map.mp hfield
    obtain ⟨hmem, hdeclaration⟩ := List.mem_filter.mp hstatement
    have hmentioned := (mentioned?_of_field (by simpa using hdeclaration) hne).mpr rfl
    have hlisted := List.mem_map_of_mem (f := tableIn statements)
      (List.mem_eraseDups.mpr (List.mem_filterMap.mpr ⟨statement, hmem, hmentioned⟩))
    rw [tables_eq]
    refine ⟨_, hlisted, fun other hother => ⟨fun hfield' => ?_, ?_⟩, ?_⟩
    · obtain ⟨name, -, rfl⟩ := List.mem_map.mp hother
      rw [htable hfield']
    · rintro rfl
      exact List.mem_filter.mpr ⟨hfield, by simp⟩
    · exact List.count_filter (by simp)

theorem tables_grouping_of_repeated_field :
    let text : Text := "DEFINE FIELD b ON comment; DEFINE TABLE user; define field overwrite b ON TABLE comment"
    let field : Text := "DEFINE FIELD b ON TABLE comment"
    let table : TableStatements := { name := "comment", fields := [field, "define field b ON TABLE comment"] }
    (tables text).map (·.name) = ["comment", "user"] ∧
      (table ∈ tables text ∧ table.fields = fieldsIn "comment" (Script.statements text)) ∧
      field ∈ fieldStatements (Script.statements text) ∧ (FieldDefinition.ofStatement field).table ≠ [] ∧
      ∃ table ∈ tables text, (∀ other ∈ tables text, field ∈ other.fields ↔ other = table) ∧
        table.fields.count field = (fieldStatements (Script.statements text)).count field := by
  intro text field table
  have hlisted : table ∈ tables text := by decide +kernel
  have hfield : field ∈ fieldStatements (Script.statements text) := by decide +kernel
  have htable : (FieldDefinition.ofStatement field).table ≠ [] := by decide
  obtain ⟨⟨hnames, -⟩, htables, hfields⟩ := tables_grouping text
  exact ⟨hnames.trans (by decide +kernel), ⟨hlisted, (htables table hlisted).2.1⟩, hfield, htable, hfields field hfield htable⟩

end Script

end SurrealZod
