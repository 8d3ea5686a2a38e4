import SurrealZod.Proofs.Generation.Kept

/-! Tables that have no schemas. Such a table leaves the disk as it is and adds nothing to the report but its own
failure, so a run over the other tables alone writes the same files and reports the same of each of them. -/

namespace SurrealZod

namespace Generation

open Store

variable {settings : Settings} {store after : Store} {table : TableStatements} {tables : List TableStatements}

/-! ### Verdicts -/

/-- A table, and why it failed, if it did. -/
abbrev Verdict := TableStatements × Option Error

/-- The tables that did not fail, by name. -/
def generatedOf (verdicts : List Verdict) : List Text :=
  verdicts.filterMap fun verdict => if verdict.2.isNone then some verdict.1.name else none

/-- The tables that failed, by name, and why. -/
def failuresOf (verdicts : List Verdict) : List (Text × Error) :=
  verdicts.filterMap fun verdict => verdict.2.map (verdict.1.name, ·)

/-- What comes of some tables, one by one. -/
def verdicts (settings : Settings) (tables : List TableStatements) (store : Store) : List Verdict :=
  tables.zip ((runTables settings tables store).1.map (·.failure))

theorem verdicts_cons (settings : Settings) (table : TableStatements) (rest : List TableStatements) (store : Store) :
    verdicts settings (table :: rest) store =
      (table, (runOne settings table store).1.failure) ::
        verdicts settings rest (runOne settings table store).2 := by
  rw [verdicts, runTables_cons]
  rfl

theorem map_fst_verdicts (settings : Settings) (tables : List TableStatements) (store : Store) :
    (verdicts settings tables store).map (·.1) = tables := by
  induction tables generalizing store with
  | nil => rfl
  | cons table rest ih => rw [verdicts_cons, List.map_cons, ih]

theorem generated_runTables (settings : Settings) (tables : List TableStatements) (store : Store) :
    Report.generated { outcomes := (runTables settings tables store).1 } =
      generatedOf (verdicts settings tables store) := by
  induction tables generalizing store with
  | nil => rfl
  | cons table rest ih =>
      have hrest := ih (runOne settings table store).2
      rw [Report.generated, generatedOf] at hrest ⊢
      rw [runTables_cons, verdicts_cons, List.filterMap_cons, List.filterMap_cons, hrest, table_runOne]

theorem failed_runTables (settings : Settings) (tables : List TableStatements) (store : Store) :
    Report.failed { outcomes := (runTables settings tables store).1 } =
      failuresOf (verdicts settings tables store) := by
  induction tables generalizing store with
  | nil => rfl
  | cons table rest ih =>
      have hrest := ih (runOne settings table store).2
      rw [Report.failed, failuresOf] at hrest ⊢
      rw [runTables_cons, verdicts_cons, List.filterMap_cons, List.filterMap_cons, hrest, table_runOne]

/-- A table without schemas fails for the reason that it has none. -/
theorem failure_of_mem_verdicts {verdict : Verdict} (h : verdict ∈ verdicts settings tables store) {failure : Error}
    (hschema : TableSchema.ofStatements verdict.1 = .error failure) : verdict.2 = some failure := by
  induction tables generalizing store with
  | nil => cases h
  | cons table rest ih =>
      rw [verdicts_cons] at h
      rcases List.mem_cons.mp h with rfl | h
      · show (runOne settings table store).1.failure = _
        rw [runOne_of_error hschema]
      · exact ih h

/-! ### Tables with schemas -/

def isReadable (table : TableStatements) : Bool := (TableSchema.ofStatements table).isOk

theorem exists_failure (h : isReadable table = false) :
    ∃ failure, TableSchema.ofStatements table = .error failure := by
  rw [isReadable] at h
  cases hschema : TableSchema.ofStatements table with
  | error failure => exact ⟨failure, rfl⟩
  | ok schema =>
      rw [hschema] at h
      cases h

/-- What a table without schemas does to the disk: nothing. -/
theorem store_runOne_of_not_isReadable (h : isReadable table = false) (settings : Settings) (store : Store) :
    (runOne settings table store).2 = store := by
  obtain ⟨failure, hschema⟩ := exists_failure h
  rw [runOne_of_error hschema]

theorem store_runTables_filter (settings : Settings) (tables : List TableStatements) (store : Store) :
    (runTables settings (tables.filter isReadable) store).2 = (runTables settings tables store).2 := by
  induction tables generalizing store with
  | nil => rfl
  | cons table rest ih =>
      rw [runTables_cons]
      cases hreadable : isReadable table with
      | true => rw [List.filter_cons_of_pos hreadable, runTables_cons, ih]
      | false =>
          rw [List.filter_cons_of_neg (by simp [hreadable]), ih, store_runOne_of_not_isReadable hreadable]

theorem verdicts_filter (settings : Settings) (tables : List TableStatements) (store : Store) :
    verdicts settings (tables.filter isReadable) store =
      (verdicts settings tables store).filter (isReadable ·.1) := by
  induction tables generalizing store with
  | nil => rfl
  | cons table rest ih =>
      rw [verdicts_cons, List.filter_cons, List.filter_cons]
      cases hreadable : isReadable table with
      | true => rw [if_pos rfl, if_pos rfl, verdicts_cons, ih]
      | false => rw [if_neg (by decide), if_neg (by decide), ih, store_runOne_of_not_isReadable hreadable]

/-- No table without schemas is generated. -/
theorem generatedOf_filter_verdicts (settings : Settings) (tables : List TableStatements) (store : Store) :
    generatedOf ((verdicts settings tables store).filter (isReadable ·.1)) =
      generatedOf (verdicts settings tables store) := by
  rw [generatedOf, generatedOf, List.filterMap_filter]
  apply List.filterMap_congr
  intro verdict hmem
  split
  · rfl
  · rename_i hreadable
    obtain ⟨failure, hschema⟩ := exists_failure (Bool.eq_false_iff.mpr hreadable)
    rw [failure_of_mem_verdicts hmem hschema]
    rfl

/-- Every table of a run is generated or failed, in the order of the tables, and one without schemas failed for that
reason. The run over the tables with schemas alone leaves the same disk and generates the same tables; its failures are
those of the whole run without the failures of the tables left out. -/
theorem run_readable_tables {report : Report} (hrun : exec (run settings (.ok tables)) store = (.ok report, after)) :
    ∃ verdicts : List Verdict, verdicts.map (·.1) = tables ∧
      report.generated = generatedOf verdicts ∧ report.failed = failuresOf verdicts ∧
      (∀ verdict ∈ verdicts, ∀ failure,
        TableSchema.ofStatements verdict.1 = .error failure → verdict.2 = some failure) ∧
      ∃ readable, exec (run settings (.ok (tables.filter isReadable))) store = (.ok readable, after) ∧
        readable.generated = report.generated ∧
        readable.failed = failuresOf (verdicts.filter (isReadable ·.1)) := by
  rw [exec_run] at hrun
  rcases hshared : exec (writeShared settings) store with ⟨cause | _, shared⟩
  · rw [hshared] at hrun
    cases hrun
  rw [hshared] at hrun
  cases hrun
  refine ⟨verdicts settings tables shared, map_fst_verdicts settings tables shared,
    generated_runTables settings tables shared, failed_runTables settings tables shared,
    fun _ hmem _ => failure_of_mem_verdicts hmem,
    { outcomes := (runTables settings (tables.filter isReadable) shared).1 }, ?_, ?_, ?_⟩
  · rw [exec_run, hshared]
    dsimp only
    rw [store_runTables_filter]
  · rw [generated_runTables, generated_runTables, verdicts_filter, generatedOf_filter_verdicts]
  · rw [failed_runTables, verdicts_filter]

/-- One table without schemas, one whose folder is a file on the disk, and one that is generated. -/
theorem run_readable_tables_of_three :
    let blocked : Store := { entries := [("client_generated", .folder
      [("_generated", .folder [("post", .file (.text "mine"))])])] }
    let broken : TableStatements := { name := "broken", fields := ["DEFINE FIELD a..b ON TABLE broken TYPE string"] }
    let unreadable : Text × Error := ("broken".toList, .emptyFieldPath "broken" "a..b")
    let refused : Text × Error := ("post".toList, .disk .notFolder)
    ∃ report after, exec (run {} (.ok [broken, { name := "post" }, { name := "user" }])) blocked = (.ok report, after) ∧
      report.generated = ["user".toList] ∧ report.failed = [unreadable, refused] ∧
      ∃ readable, exec (run {} (.ok [{ name := "post" }, { name := "user" }])) blocked = (.ok readable, after) ∧
        readable.generated = ["user".toList] ∧ readable.failed = [refused] := by
  intro blocked broken unreadable refused
  have hresult : (exec (run {} (.ok [broken, { name := "post" }, { name := "user" }])) blocked).1 =
      .ok { outcomes := [{ table := "broken", failure := some (.emptyFieldPath "broken" "a..b") },
        { table := "post", failure := some (.disk .notFolder) }, { table := "user" }] } := by decide +kernel
  rcases hrun : exec (run {} (.ok [broken, { name := "post" }, { name := "user" }])) blocked with ⟨result, after⟩
  rw [hrun] at hresult
  subst hresult
  obtain ⟨verdicts, htables, -, hfailed, -, readable, hreadable, hsame, hothers⟩ := run_readable_tables hrun
  have hfilter : [broken, { name := "post" }, { name := "user" }].filter isReadable =
      [{ name := "post" }, { name := "user" }] := by decide +kernel
  rw [hfilter] at hreadable
  refine ⟨_, after, rfl, rfl, rfl, readable, hreadable, hsame, ?_⟩
  -- The verdicts are known by what the report says of the tables.
  have hthree : ∃ first second third,
      verdicts = [(broken, first), ({ name := "post" }, second), ({ name := "user" }, third)] := by
    rcases verdicts with _ | ⟨⟨_, first⟩, _ | ⟨⟨_, second⟩, _ | ⟨⟨_, third⟩, _ | _⟩⟩⟩ <;> simp at htables
    obtain ⟨rfl, rfl, rfl⟩ := htables
    exact ⟨first, second, third, rfl⟩
  obtain ⟨first, second, third, rfl⟩ := hthree
  have hreadables : isReadable broken = false ∧ isReadable { name := "post" } = true ∧
      isReadable { name := "user" } = true := by decide +kernel
  obtain ⟨hbroken, hpost, huser⟩ := hreadables
  rw [hothers, List.filter_cons, List.filter_cons, List.filter_cons, hbroken, hpost, huser]
  cases first <;> cases second <;> cases third <;> simp [failuresOf, Report.failed] at hfailed
  obtain ⟨-, rfl⟩ := hfailed
  rfl

end Generation

end SurrealZod
