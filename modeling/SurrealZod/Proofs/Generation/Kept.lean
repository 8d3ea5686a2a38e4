import Mathlib.Data.List.Nodup
import SurrealZod.Proofs.Generation.Tables

/-! What is on the disk when a run ends. A file that a run writes stays if no later table empties a folder above
it, and the only folders that are emptied are those of stems. -/

namespace SurrealZod

theorem TableSchema.table_of_ofStatements {table : TableStatements} {schema : TableSchema}
    (h : TableSchema.ofStatements table = .ok schema) : schema.table = table.name := by
  unfold TableSchema.ofStatements at h
  cases htree : FieldTree.ofDefinitions table.name (table.fields.map FieldDefinition.ofStatement) with
  | error failure =>
      rw [htree] at h
      cases h
  | ok tree =>
      rw [htree] at h
      cases h
      rfl

namespace Generation

open Store SurrealZod.Path

variable {settings : Settings} {store after : Store} {table : TableStatements} {schema : TableSchema}

/-! ### Tables -/

/-- What comes of some tables, and the store that they leave. -/
def runTables (settings : Settings) (tables : List TableStatements) (store : Store) : List TableOutcome × Store :=
  (tables.mapM (runTable settings) : StateM Store (List TableOutcome)) store

/-- What comes of a table, and the store that it leaves. -/
def runOne (settings : Settings) (table : TableStatements) (store : Store) : TableOutcome × Store :=
  (runTable settings table : StateM Store TableOutcome) store

theorem runOne_of_error {failure : Error} (h : TableSchema.ofStatements table = .error failure) (store : Store) :
    runOne settings table store = ({ table := table.name, failure := some failure }, store) := by
  unfold runOne runTable
  rw [h]
  rfl

theorem runOne_of_ok (h : TableSchema.ofStatements table = .ok schema)
    (hexec : exec (writeTable settings schema) store = (.ok (), after)) :
    runOne settings table store = ({ table := table.name }, after) := by
  have hrun : (writeTable (m := StateM Store) settings schema) store = (.ok (), after) := hexec
  unfold runOne runTable
  rw [h]
  show StateT.bind _ _ store = _
  rw [StateT.bind, ExceptT.run, hrun]
  rfl

theorem runOne_of_refused {cause : DiskError} (h : TableSchema.ofStatements table = .ok schema)
    (hexec : exec (writeTable settings schema) store = (.error cause, after)) :
    runOne settings table store = ({ table := table.name, failure := some (.disk cause) }, after) := by
  have hrun : (writeTable (m := StateM Store) settings schema) store = (.error cause, after) := hexec
  unfold runOne runTable
  rw [h]
  show StateT.bind _ _ store = _
  rw [StateT.bind, ExceptT.run, hrun]
  rfl

/-- What comes of a table with schemas, by what comes of writing its files. -/
def outcomeOf (table : TableStatements) : Except DiskError Unit → TableOutcome
  | .ok () => { table := table.name }
  | .error cause => { table := table.name, failure := some (.disk cause) }

theorem runOne_eq (h : TableSchema.ofStatements table = .ok schema) (store : Store) :
    runOne settings table store =
      (outcomeOf table (exec (writeTable settings schema) store).1, (exec (writeTable settings schema) store).2) := by
  rcases hexec : exec (writeTable settings schema) store with ⟨cause | _, after⟩
  · exact runOne_of_refused h hexec
  · exact runOne_of_ok h hexec

theorem table_runOne (settings : Settings) (table : TableStatements) (store : Store) :
    (runOne settings table store).1.table = table.name := by
  cases h : TableSchema.ofStatements table with
  | error failure => rw [runOne_of_error h]
  | ok schema =>
      rw [runOne_eq h]
      cases (exec (writeTable settings schema) store).1 <;> rfl

theorem store_runOne_of_ok (h : TableSchema.ofStatements table = .ok schema) (store : Store) :
    (runOne settings table store).2 = (exec (writeTable settings schema) store).2 := by
  rw [runOne_eq h]

/-- Whether a table has schemas, so that a run begins to write its files. -/
def IsReadable (table : TableStatements) : Prop := ∃ schema, TableSchema.ofStatements table = .ok schema

/-- What a table does to the store it does by writing its files. -/
theorem runOne_induction {P : Store → Prop} (table : TableStatements) (hstore : P store)
    (h : ∀ schema, TableSchema.ofStatements table = .ok schema → P (exec (writeTable settings schema) store).2) :
    P (runOne settings table store).2 := by
  cases hschema : TableSchema.ofStatements table with
  | error failure =>
      rw [runOne_of_error hschema]
      exact hstore
  | ok schema =>
      rw [store_runOne_of_ok hschema]
      exact h schema hschema

/-- A table that is no failure has its generated file. -/
theorem readText_runOne (h : (runOne settings table store).1.failure = none) :
    ∃ schema, TableSchema.ofStatements table = .ok schema ∧
      (runOne settings table store).2.readText (generatedFile settings table.name) =
        .ok (Output.generatedSchema schema) := by
  cases hschema : TableSchema.ofStatements table with
  | error failure =>
      rw [runOne_of_error hschema] at h
      cases h
  | ok schema =>
      refine ⟨schema, rfl, ?_⟩
      rw [← TableSchema.table_of_ofStatements hschema]
      rcases hexec : exec (writeTable settings schema) store with ⟨cause | _, after⟩
      · rw [runOne_of_refused hschema hexec] at h
        cases h
      · rw [runOne_of_ok hschema hexec]
        exact readText_generatedFile hexec

/-! ### Runs -/

theorem runTables_cons (settings : Settings) (table : TableStatements) (rest : List TableStatements) (store : Store) :
    runTables settings (table :: rest) store =
      ((runOne settings table store).1 :: (runTables settings rest (runOne settings table store).2).1,
        (runTables settings rest (runOne settings table store).2).2) := by
  unfold runTables
  rw [List.mapM_cons]
  rfl

theorem runTables_append (settings : Settings) (tables more : List TableStatements) (store : Store) :
    runTables settings (tables ++ more) store =
      ((runTables settings tables store).1 ++ (runTables settings more (runTables settings tables store).2).1,
        (runTables settings more (runTables settings tables store).2).2) := by
  induction tables generalizing store with
  | nil => rfl
  | cons table rest ih => rw [List.cons_append, runTables_cons, runTables_cons, ih, List.cons_append]

theorem map_table_runTables (settings : Settings) (tables : List TableStatements) (store : Store) :
    (runTables settings tables store).1.map (·.table) = tables.map (·.name) := by
  induction tables generalizing store with
  | nil => rfl
  | cons table rest ih => rw [runTables_cons, List.map_cons, List.map_cons, table_runOne, ih]

/-- What every table of some keeps is kept by all of them. -/
theorem runTables_induction {P : Store → Prop} {tables : List TableStatements}
    (h : ∀ table ∈ tables, ∀ store, P store → P (runOne settings table store).2) (hstore : P store) :
    P (runTables settings tables store).2 := by
  induction tables generalizing store with
  | nil => exact hstore
  | cons table rest ih =>
      obtain ⟨htable, hrest⟩ := List.forall_mem_cons.mp h
      rw [runTables_cons]
      exact ih hrest (htable store hstore)

theorem exec_run (settings : Settings) (tables : List TableStatements) (store : Store) :
    exec (run settings (.ok tables)) store =
      match exec (writeShared settings) store with
      | (.error cause, shared) => (.error (.disk cause), shared)
      | (.ok (), shared) =>
        (.ok { outcomes := (runTables settings tables shared).1 }, (runTables settings tables shared).2) := by
  unfold run
  rw [Store.exec_bind, exec_adapt]
  rcases exec (writeShared settings) store with ⟨cause | _, shared⟩
  · rfl
  · show exec (pure tables >>= fun tables =>
      tables.mapM (fun table => liftM (runTable settings table)) >>= _) shared = _
    rw [pure_bind, Store.exec_bind, exec_mapM_lift]
    rfl

theorem exec_run_error (settings : Settings) (failure : Error) (store : Store) :
    exec (run settings (.error failure)) store =
      match exec (writeShared settings) store with
      | (.error cause, shared) => (.error (.disk cause), shared)
      | (.ok (), shared) => (.error failure, shared) := by
  unfold run
  rw [Store.exec_bind, exec_adapt]
  rcases exec (writeShared settings) store with ⟨cause | _, shared⟩ <;> rfl

/-! ### Files at the end of a run -/

theorem readText_recordFile_writeShared {result : Unit} (h : exec (writeShared settings) store = (.ok result, after)) :
    after.readText (recordFile settings) = .ok (Output.recordSchema settings.lib) := by
  obtain ⟨_, made, -, hwrite⟩ := exec_bind_eq_ok h
  exact readText_of_exec_writeText hwrite

/-- Whether a table empties no folder above a generated file, by the first name on the way to the file. -/
def Spares (name : Text) (table : TableStatements) : Prop :=
  IsReadable table → TableName.stem table.name ≠ [] ∧ TableName.stem table.name ≠ name

theorem readText_runOne_of_spares {path : Path} {name : Text} {rest : List Text} {text : Text}
    (hpath : IsGenerated settings path (name :: rest)) (hspares : Spares name table)
    (hread : store.readText path = .ok text) : (runOne settings table store).2.readText path = .ok text := by
  refine runOne_induction (P := fun store => store.readText path = .ok text) table hread ?_
  intro schema hschema
  obtain ⟨hstem, hne⟩ := hspares ⟨schema, hschema⟩
  rw [← TableSchema.table_of_ofStatements hschema] at hstem hne
  exact readText_writeTable hpath hstem hne.symm hread

theorem readText_runTables {path : Path} {name : Text} {rest : List Text} {tables : List TableStatements} {text : Text}
    (hpath : IsGenerated settings path (name :: rest)) (hspares : ∀ table ∈ tables, Spares name table)
    (hread : store.readText path = .ok text) : (runTables settings tables store).2.readText path = .ok text :=
  runTables_induction (P := fun store => store.readText path = .ok text)
    (fun table htable _ => readText_runOne_of_spares hpath (hspares table htable)) hread

/-- The generated file of a table stays if no later table has an empty stem or the same one. -/
theorem readText_generatedFile_runTables {table text : Text} {later : List TableStatements}
    (hspares : ∀ next ∈ later, Spares (TableName.stem table) next)
    (hread : store.readText (generatedFile settings table) = .ok text) :
    (runTables settings later store).2.readText (generatedFile settings table) = .ok text := by
  obtain ⟨name, rest, hpath, hname⟩ := exists_isGenerated_generatedFile settings table
  refine readText_runTables hpath (fun next hnext hreadable => ?_) hread
  obtain ⟨hstem, hne⟩ := hspares next hnext hreadable
  refine ⟨hstem, ?_⟩
  rcases hname with rfl | hdot
  · exact hne
  · exact (ne_stem hdot next.name).symm

/-- Whether there is no shared file. -/
def LacksRecordFile (settings : Settings) (store : Store) : Prop :=
  ∀ content, store.kind? (recordFile settings).location ≠ some (.file content)

theorem LacksRecordFile.runOne (h : LacksRecordFile settings store) (table : TableStatements) :
    LacksRecordFile settings (runOne settings table store).2 :=
  runOne_induction table h fun schema _ content hfile => h content (addsNone_writeTable settings schema store hfile)

theorem lacksRecordFile_runOne {text : Text} (hreadable : IsReadable table) (hstem : TableName.stem table.name = [])
    (hread : store.readText (recordFile settings) = .ok text) :
    LacksRecordFile settings (Generation.runOne settings table store).2 := by
  obtain ⟨schema, hschema⟩ := hreadable
  rw [← TableSchema.table_of_ofStatements hschema] at hstem
  intro content
  rw [store_runOne_of_ok hschema]
  exact kind?_recordFile_writeTable hstem hread content

theorem spares_recordFile (h : IsReadable table → TableName.stem table.name ≠ []) :
    Spares "recordSchema.ts" table :=
  fun hreadable => ⟨h hreadable, (ne_stem (by decide) table.name).symm⟩

/-- The shared file stays exactly if no table with schemas has an empty stem. -/
theorem readText_recordFile_runTables_iff {tables : List TableStatements} {text : Text}
    (hread : store.readText (recordFile settings) = .ok text) :
    (runTables settings tables store).2.readText (recordFile settings) = .ok text ↔
      ∀ table ∈ tables, IsReadable table → TableName.stem table.name ≠ [] := by
  have hpath := isGenerated_recordFile settings
  constructor
  · intro hend table htable hreadable hstem
    obtain ⟨earlier, later, rfl⟩ := List.append_of_mem htable
    rw [runTables_append, runTables_cons] at hend
    -- Up to the table, the file is there or was lost before.
    have hearlier : (runTables settings earlier store).2.readText (recordFile settings) = .ok text ∨
        LacksRecordFile settings (runTables settings earlier store).2 := by
      refine runTables_induction
        (P := fun store => store.readText (recordFile settings) = .ok text ∨ LacksRecordFile settings store)
        (fun other _ store hstore => ?_) (Or.inl hread)
      rcases hstore with hread | hlacks
      · by_cases hkeeps : IsReadable other → TableName.stem other.name ≠ []
        · exact Or.inl (readText_runOne_of_spares hpath (spares_recordFile hkeeps) hread)
        · obtain ⟨hother, hempty⟩ := Classical.not_imp.mp hkeeps
          exact Or.inr (lacksRecordFile_runOne hother (not_not.mp hempty) hread)
      · exact Or.inr (hlacks.runOne other)
    have hlost : LacksRecordFile settings (runOne settings table (runTables settings earlier store).2).2 := by
      rcases hearlier with hread | hlacks
      · exact lacksRecordFile_runOne hreadable hstem hread
      · exact hlacks.runOne table
    have hlater : LacksRecordFile settings (runTables settings later _).2 :=
      runTables_induction (P := LacksRecordFile settings) (fun other _ _ hlacks => hlacks.runOne other) hlost
    exact hlater _ (readText_eq_ok_iff.mp hend).2.2
  · exact fun h => readText_runTables hpath (fun table htable => spares_recordFile (h table htable)) hread

/-- In a report on different tables, one that is listed as generated did not fail. -/
theorem failure_eq_none_of_mem_generated {report : Report} (hnames : (report.outcomes.map (·.table)).Nodup)
    {outcome : TableOutcome} (hmem : outcome ∈ report.outcomes) (h : outcome.table ∈ report.generated) :
    outcome.failure = none := by
  obtain ⟨other, hother, hfound⟩ := List.mem_filterMap.mp h
  split at hfound
  · rename_i hnone
    have heq := List.inj_on_of_nodup_map hnames hother hmem (Option.some.inj hfound)
    rw [← heq]
    exact Option.isNone_iff_eq_none.mp hnone
  · cases hfound

/-- A table that is listed as generated had its file when its turn ended. -/
theorem readText_of_mem_generated {earlier later : List TableStatements}
    (hnames : ((earlier ++ table :: later).map (·.name)).Nodup)
    (h : table.name ∈ Report.generated { outcomes := (runTables settings (earlier ++ table :: later) store).1 }) :
    ∃ schema, TableSchema.ofStatements table = .ok schema ∧
      (runOne settings table (runTables settings earlier store).2).2.readText (generatedFile settings table.name) =
        .ok (Output.generatedSchema schema) := by
  rw [← map_table_runTables settings _ store] at hnames
  rw [← table_runOne settings table (runTables settings earlier store).2] at h
  refine readText_runOne (failure_eq_none_of_mem_generated hnames ?_ h)
  rw [runTables_append, runTables_cons]
  exact List.mem_append_right _ List.mem_cons_self

/-- What a run leaves on the disk. The shared file is there exactly if no table with schemas has an empty stem, and
the file of a generated table is there unless a later table with schemas has an empty stem or the same one. -/
theorem files_after_run {tables : List TableStatements} {report : Report}
    (hnames : (tables.map (·.name)).Nodup) (hrun : exec (run settings (.ok tables)) store = (.ok report, after)) :
    (after.readText (recordFile settings) = .ok (Output.recordSchema settings.lib) ↔
      ∀ table ∈ tables, IsReadable table → TableName.stem table.name ≠ []) ∧
    ∀ earlier table later, tables = earlier ++ table :: later → table.name ∈ report.generated →
      (∀ next ∈ later, Spares (TableName.stem table.name) next) →
        ∃ schema, TableSchema.ofStatements table = .ok schema ∧
          after.readText (generatedFile settings table.name) = .ok (Output.generatedSchema schema) := by
  rw [exec_run] at hrun
  rcases hshared : exec (writeShared settings) store with ⟨cause | _, shared⟩
  · rw [hshared] at hrun
    cases hrun
  rw [hshared] at hrun
  cases hrun
  refine ⟨readText_recordFile_runTables_iff (readText_recordFile_writeShared hshared), ?_⟩
  rintro earlier table later rfl hgenerated hspares
  obtain ⟨schema, hschema, hread⟩ := readText_of_mem_generated hnames hgenerated
  rw [runTables_append, runTables_cons]
  exact ⟨schema, hschema, readText_generatedFile_runTables hspares hread⟩

theorem files_after_run_of_post_and_user :
    ∃ after, exec (run {} (.ok [{ name := "post" }, { name := "user" }])) {} =
        (.ok { outcomes := [{ table := "post" }, { table := "user" }] }, after) ∧
      after.readText (recordFile {}) = .ok (Output.recordSchema "surrealdb.js") ∧
      ∃ schema, TableSchema.ofStatements { name := "post" } = .ok schema ∧
        after.readText (generatedFile {} "post") = .ok (Output.generatedSchema schema) := by
  have hresult : (exec (run {} (.ok [{ name := "post" }, { name := "user" }])) {}).1 =
      .ok { outcomes := [{ table := "post" }, { table := "user" }] } := by decide +kernel
  rcases hrun : exec (run {} (.ok [{ name := "post" }, { name := "user" }])) {} with ⟨result, after⟩
  rw [hrun] at hresult
  subst hresult
  have hfiles := files_after_run (by decide) hrun
  refine ⟨after, rfl, hfiles.1.mpr ?_, hfiles.2 [] { name := "post" } [{ name := "user" }] rfl (by decide) ?_⟩
  · have hstems : ∀ table : TableStatements, table ∈ [{ name := "post" }, { name := "user" }] →
        TableName.stem table.name ≠ [] := by decide +kernel
    exact fun table htable _ => hstems table htable
  · exact List.forall_mem_singleton.mpr fun _ => ⟨by decide +kernel, by decide +kernel⟩

/-- The second table has an empty stem, and its run removes all that is generated so far. -/
theorem files_lost_to_empty_stem :
    let settings := { generateClient := false : Settings }
    let result := exec (run settings (.ok [{ name := "user" }, { name := "___" }])) {}
    result.1 = .ok { outcomes := [{ table := "user" }, { table := "___" }] } ∧
      result.2.readText (recordFile settings) = .error .notFound ∧
      result.2.readText (generatedFile settings "user") = .error .notFound := by
  decide +kernel

/-- Two tables with one stem have one file, and it is the later one's. -/
example :
    let result := exec (run {} (.ok [{ name := "user_profile" }, { name := "userProfile" }])) {}
    result.1 = .ok { outcomes := [{ table := "user_profile" }, { table := "userProfile" }] } ∧
      (TableSchema.ofStatements { name := "userProfile" }).toOption.map Output.generatedSchema =
        (result.2.readText (generatedFile {} "user_profile")).toOption := by
  decide +kernel

end Generation

end SurrealZod
