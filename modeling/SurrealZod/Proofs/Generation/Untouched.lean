import SurrealZod.Proofs.Generation.Kept

/-! What a run leaves alone. A run removes folders below the folder of all generated files only, and overwrites files
there and below the folder of the client files. All else that it writes are custom files, which are written where
nothing stands. So a file anywhere else is the user's, and stays as it is whatever comes of the run. -/

namespace SurrealZod

namespace Store

variable {store after : Store} {path : Path} {location : Location}

/-- Whether a file at a location stays as it is. -/
def KeepsFile (location : Location) (store after : Store) : Prop :=
  ∀ {content}, store.kind? location = some (.file content) → after.kind? location = some (.file content)

theorem allows_keepsFile (location : Location) : Allows location (KeepsFile location) where
  refl _ := id
  trans h hlast := fun hfile => hlast (h hfile)
  grown h := h.kind?
  write hne h := ((allows_keeps location).write hne h).file

theorem keepsFile_removeTree (h : store.removeTree path = .ok after) (hne : path.location ≠ [])
    (hbelow : ∀ name rest, location ≠ path.location ++ name :: rest) : KeepsFile location store after := by
  intro content hfile
  obtain ⟨-, hfolder, rfl⟩ := removeTree_eq_ok h
  rw [kind?_erase store hne, if_neg, hfile]
  rintro ⟨_ | ⟨name, rest⟩, rfl⟩
  · rw [List.append_nil, hfolder] at hfile
    cases hfile
  · exact hbelow name rest rfl

/-- A file that is written only if nothing is there overwrites nothing. -/
theorem keepsFile_writeOnce (location : Location) (path : Path) (text : Text) :
    Ensures (KeepsFile location) (Disk.writeOnce (m := StateM Store) path text) := by
  intro store content hfile
  rw [exec_writeOnce]
  split
  · exact hfile
  · rename_i hthere
    rw [exec_writeText]
    cases hwrite : store.write path (.text text) with
    | error cause => exact hfile
    | ok written =>
        obtain ⟨hlocate, hslash, -, hkind⟩ := write_eq_ok hwrite
        show written.kind? location = some (.file content)
        rw [hkind, if_neg, hfile]
        -- A path to the file would have been found to lead to something.
        rintro rfl
        refine hthere ?_
        rw [isThere, lookup_of_locate hlocate, hfile, hslash]
        rfl

end Store

namespace Generation

open Store SurrealZod.Path

variable {settings : Settings} {store after : Store} {table : TableStatements} {schema : TableSchema}
  {location : Location}

/-! ### Places below a folder -/

/-- Whether a location is below the one that a folder has. -/
def IsBelow (folder : Path) (location : Location) : Prop :=
  folder.location <+: location ∧ folder.location ≠ location

instance (folder : Path) (location : Location) : Decidable (IsBelow folder location) :=
  inferInstanceAs (Decidable (_ ∧ _))

theorem isBelow_append {rest : Location} (h : rest ≠ []) (folder : Path) : IsBelow folder (folder.location ++ rest) :=
  ⟨List.prefix_append _ _, fun heq => h (List.append_right_eq_self.mp heq.symm)⟩

theorem isBelow_child_child {stem name : Text} (hstem : Text.IsName stem) (hname : IsEntryName name) (folder : Path) :
    IsBelow folder ((folder.child stem).child name).location := by
  rw [hname.location_child, location_child_stem hstem, List.append_assoc]
  exact isBelow_append (List.append_ne_nil_of_right_ne_nil _ (List.cons_ne_nil _ _)) folder

theorem isBelow_generatedFile (settings : Settings) (table : Text) :
    IsBelow (generatedFolder settings) (generatedFile settings table).location :=
  isBelow_child_child (isName_stem table)
    (isEntryName_append (slash_not_mem (isName_stem table)) (by decide) (by decide)) _

theorem isBelow_recordFile (settings : Settings) :
    IsBelow (generatedFolder settings) (recordFile settings).location := by
  rw [(isGenerated_recordFile settings).location]
  exact isBelow_append (List.cons_ne_nil _ _) _

theorem isBelow_of_mem_customFiles {table : Text} {path : Path} (h : path ∈ customFiles settings table) :
    IsBelow (schemaFolder settings) path.location := by
  obtain ⟨name, hname, rfl⟩ := exists_of_mem_customFiles h
  exact isBelow_child_child (isName_stem table) hname _

theorem isBelow_of_mem_clientFiles {table : Text} {path : Path} (h : path ∈ clientFiles settings table) :
    IsBelow (clientFolder settings) path.location := by
  obtain ⟨name, hname, rfl⟩ := exists_of_mem_clientFiles h
  exact isBelow_child_child (isName_stem table) hname _

/-! ### Tables -/

/-- The folder that is emptied for a table has nothing below it that is not generated. -/
theorem keepsFile_remove_tableFolder {table : Text} (hgenerated : ¬IsBelow (generatedFolder settings) location)
    (h : store.removeTree (tableFolder settings table) = .ok after) : KeepsFile location store after := by
  refine keepsFile_removeTree h (location_tableFolder_ne_nil settings table) fun name rest heq => hgenerated ?_
  rw [heq, tableFolder, location_child_stem (isName_stem table), List.append_assoc]
  exact isBelow_append (List.append_ne_nil_of_right_ne_nil _ (List.cons_ne_nil _ _)) _

theorem keepsFile_writeTable (hgenerated : ¬IsBelow (generatedFolder settings) location)
    (hclient : ¬IsBelow (clientFolder settings) location) (schema : TableSchema) :
    Ensures (KeepsFile location) (writeTable settings schema) := by
  have hR := allows_keepsFile location
  refine hR.chains.bind (ensures_writeGenerated hR (keepsFile_remove_tableFolder hgenerated) ?_) fun _ =>
    ensures_writeBeside hR (fun path _ => keepsFile_writeOnce location path) fun path hpath => ?_
  · exact fun heq => hgenerated (heq ▸ isBelow_generatedFile settings schema.table)
  · exact fun heq => hclient (heq ▸ isBelow_of_mem_clientFiles hpath)

/-- A table makes no files but its own. -/
theorem addsNone_writeTable_of_ne (hgenerated : ¬IsBelow (generatedFolder settings) location)
    (hclient : ¬IsBelow (clientFolder settings) location)
    (hcustom : ∀ path ∈ customFiles settings schema.table, path.location ≠ location) :
    Ensures (AddsNone location) (writeTable settings schema) := by
  have hR := allows_addsNone location
  refine hR.chains.bind
    (ensures_writeGenerated hR (addsNone_removeTree (location_tableFolder_ne_nil settings schema.table)) ?_) fun _ =>
    ensures_writeBeside hR (fun path hpath text => ?_) fun path hpath => ?_
  · exact fun heq => hgenerated (heq ▸ isBelow_generatedFile settings schema.table)
  · exact hR.chains.writeOnce (hR.writeText (hcustom path hpath) text)
  · exact fun heq => hclient (heq ▸ isBelow_of_mem_clientFiles hpath)

/-! ### Runs -/

variable {R : Store → Store → Prop} {source : Except Error (List TableStatements)}

theorem ensures_writeShared (hR : Allows location R) (hne : (recordFile settings).location ≠ location) :
    Ensures R (writeShared settings) :=
  hR.chains.bind (hR.makeFolders _) fun _ => hR.writeText hne _

/-- What the shared file and every table with schemas keep to, a run keeps to. -/
theorem ensures_run (hR : Chains R) (hshared : Ensures R (writeShared settings))
    (htables : ∀ tables, source = .ok tables → ∀ table ∈ tables, ∀ schema,
      TableSchema.ofStatements table = .ok schema → Ensures R (writeTable settings schema)) :
    Ensures R (run settings source) := by
  intro store
  have hfirst := hshared store
  cases source with
  | error failure =>
      rw [exec_run_error]
      rcases hexec : exec (writeShared settings) store with ⟨cause | _, shared⟩ <;> rwa [hexec] at hfirst
  | ok tables =>
      rw [exec_run]
      rcases hexec : exec (writeShared settings) store with ⟨cause | _, shared⟩
      · rwa [hexec] at hfirst
      · rw [hexec] at hfirst
        refine hR.trans hfirst ?_
        refine runTables_induction (P := R shared) (fun table htable other hother => ?_) (hR.refl shared)
        refine runOne_induction (P := R shared) table hother fun schema hschema => ?_
        exact hR.trans hother (htables tables rfl table htable schema hschema other)

/-- A file that is below neither the folder of all generated files nor that of the client files stays as it is,
whatever comes of a run. A file at such a place that is not from before is a custom file of a listed table with
schemas. -/
theorem user_files_after_run {result : Except Error Report} {content : Content}
    (hrun : exec (run settings source) store = (result, after))
    (hgenerated : ¬IsBelow (generatedFolder settings) location) (hclient : ¬IsBelow (clientFolder settings) location) :
    (store.kind? location = some (.file content) → after.kind? location = some (.file content)) ∧
    (after.kind? location = some (.file content) → store.kind? location = some (.file content) ∨
      IsBelow (schemaFolder settings) location ∧ ∃ tables table, source = .ok tables ∧ table ∈ tables ∧
        IsReadable table ∧ ∃ path ∈ customFiles settings table.name, location = path.location) := by
  have hrecord : (recordFile settings).location ≠ location :=
    fun heq => hgenerated (heq ▸ isBelow_recordFile settings)
  have hafter : (exec (run settings source) store).2 = after := by rw [hrun]
  constructor
  · have hR := allows_keepsFile location
    have hkeeps : Ensures (KeepsFile location) (run settings source) :=
      ensures_run hR.chains (ensures_writeShared hR hrecord)
        fun _ _ _ _ schema _ => keepsFile_writeTable hgenerated hclient schema
    exact hafter ▸ hkeeps store
  · intro hfile
    by_cases hcustom : ∃ tables table, source = .ok tables ∧ table ∈ tables ∧ IsReadable table ∧
        ∃ path ∈ customFiles settings table.name, location = path.location
    · refine Or.inr ⟨?_, hcustom⟩
      obtain ⟨-, table, -, -, -, path, hpath, rfl⟩ := hcustom
      exact isBelow_of_mem_customFiles hpath
    · refine Or.inl ?_
      have hR := allows_addsNone location
      have hadds : Ensures (AddsNone location) (run settings source) := by
        refine ensures_run hR.chains (ensures_writeShared hR hrecord) fun tables hsource table htable schema hschema =>
          addsNone_writeTable_of_ne hgenerated hclient fun path hpath heq => hcustom ?_
        rw [TableSchema.table_of_ofStatements hschema] at hpath
        exact ⟨tables, table, hsource, htable, ⟨schema, hschema⟩, path, hpath, heq.symm⟩
      subst hafter
      exact hadds store hfile

/-- A schema that the user has changed outlives a run. -/
theorem user_files_after_run_of_custom_schema :
    let mine : Location := ["client_generated", "schema", "user", "userSchema.ts"]
    let customized : Store := { entries := [("client_generated", .folder [("schema", .folder [("user", .folder
      [("userSchema.ts", .file (.text "// mine"))])])])] }
    ∃ after, exec (run {} (.ok [{ name := "user" }])) customized = (.ok { outcomes := [{ table := "user" }] }, after) ∧
      ¬IsBelow (generatedFolder {}) mine ∧ ¬IsBelow (clientFolder {}) mine ∧
      after.kind? mine = some (.file (.text "// mine")) := by
  intro mine customized
  have hresult : (exec (run {} (.ok [{ name := "user" }])) customized).1 =
      .ok { outcomes := [{ table := "user" }] } := by decide +kernel
  rcases hrun : exec (run {} (.ok [{ name := "user" }])) customized with ⟨result, after⟩
  rw [hrun] at hresult
  subst hresult
  have hgenerated : ¬IsBelow (generatedFolder {}) mine := by decide +kernel
  have hclient : ¬IsBelow (clientFolder {}) mine := by decide +kernel
  exact ⟨after, rfl, hgenerated, hclient, (user_files_after_run hrun hgenerated hclient).1 (by decide +kernel)⟩

end Generation

end SurrealZod
