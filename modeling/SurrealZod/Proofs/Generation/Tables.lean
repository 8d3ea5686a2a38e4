import SurrealZod.Generation.Run
import SurrealZod.Proofs.Disk.Reading

/-! What a table's files are and what writing them does to those of other tables. All that is generated stands
below one folder, and below it a table touches the folder of its own stem only. A table whose name has no letter
or digit has no folder of its own: its stem is empty, and what it empties is the folder of all generated files. -/

namespace SurrealZod

namespace Path

theorem isEntryName_append {s t : Text} (hs : '/' ∉ s) (ht : '/' ∉ t) (hmore : t.any (· ≠ '.') = true) :
    IsEntryName (s ++ t) := by
  obtain ⟨c, hc, hdot⟩ := List.any_eq_true.mp hmore
  replace hdot := of_decide_eq_true hdot
  have hmem : c ∈ s ++ t := List.mem_append_right _ hc
  refine ⟨List.ne_nil_of_mem hmem, by simp [hs, ht], ?_, ?_⟩
  · intro heq
    rw [heq] at hmem
    exact hdot (List.mem_singleton.mp hmem)
  · intro heq
    rw [heq] at hmem
    simp [hdot] at hmem

theorem isEntryName_of_isName {name : Text} (h : Text.IsName name) (hne : name ≠ []) : IsEntryName name where
  ne_nil := hne
  no_slash hmem := h.ne_of_mem hmem (by decide) rfl
  ne_here heq := h.ne_of_mem (heq ▸ List.mem_cons_self) (by decide) rfl
  ne_above heq := h.ne_of_mem (heq ▸ List.mem_cons_self) (by decide) rfl

end Path

namespace Generation

open Store Disk SurrealZod.Path

variable {settings : Settings} {store after : Store} {table : TableStatements} {schema : TableSchema}

/-! ### Places -/

/-- The file that all tables share. -/
def recordFile (settings : Settings) : Path := (generatedFolder settings).child "recordSchema.ts"

/-- The generated file of a table. -/
def generatedFile (settings : Settings) (table : Text) : Path :=
  ((generatedFolder settings).child (TableName.stem table)).child (TableName.stem table ++ "SchemaGen.ts")

theorem isName_stem (table : Text) : Text.IsName (TableName.stem table) := Text.isName_lowerCamel table

theorem slash_not_mem {name : Text} (h : Text.IsName name) : '/' ∉ name := fun hmem => h.ne_of_mem hmem (by decide) rfl

theorem isEntryName_stem {table : Text} (h : TableName.stem table ≠ []) : IsEntryName (TableName.stem table) :=
  isEntryName_of_isName (isName_stem table) h

/-- A name with a dot is no stem. -/
theorem ne_stem {name : Text} (h : '.' ∈ name) (table : Text) : name ≠ TableName.stem table := by
  rintro rfl
  exact (isName_stem table).ne_of_mem h (by decide) rfl

theorem isEntryName_generated : IsEntryName "_generated" := ⟨by decide, by decide, by decide, by decide⟩

theorem isEntryName_recordFile : IsEntryName "recordSchema.ts" := ⟨by decide, by decide, by decide, by decide⟩

theorem parts_generatedFolder (settings : Settings) :
    (generatedFolder settings).parts = settings.outputFolder.parts ++ ["_generated".toList] :=
  isEntryName_generated.parts_child _

theorem location_generatedFolder (settings : Settings) :
    (generatedFolder settings).location = settings.outputFolder.location ++ ["_generated".toList] :=
  isEntryName_generated.location_child _

/-- A path below the folder of all generated files, by the names that lead to it from there. -/
structure IsGenerated (settings : Settings) (path : Path) (names : List Text) : Prop where
  parts_eq : path.parts = (generatedFolder settings).parts ++ names
  entries : ∀ name ∈ names, IsEntryName name

theorem IsGenerated.location {path : Path} {names : List Text} (h : IsGenerated settings path names) :
    path.location = (generatedFolder settings).location ++ names := by
  rw [Path.location, h.parts_eq, List.foldl_append, ← Path.location]
  exact foldl_go h.entries _

theorem isGenerated_recordFile (settings : Settings) :
    IsGenerated settings (recordFile settings) ["recordSchema.ts".toList] :=
  ⟨isEntryName_recordFile.parts_child _, List.forall_mem_singleton.mpr isEntryName_recordFile⟩

theorem isGenerated_generatedFile (settings : Settings) (table : Text) :
    IsGenerated settings (generatedFile settings table)
      ([TableName.stem table].filter (!·.isEmpty) ++ [TableName.stem table ++ "SchemaGen.ts"]) := by
  have hname : IsEntryName (TableName.stem table ++ "SchemaGen.ts") :=
    isEntryName_append (slash_not_mem (isName_stem table)) (by decide) (by decide)
  constructor
  · rw [generatedFile, hname.parts_child, parts_child _ (slash_not_mem (isName_stem table)), List.append_assoc]
  · refine List.forall_mem_append.mpr ⟨fun name hmem => ?_, List.forall_mem_singleton.mpr hname⟩
    obtain ⟨hmem, hne⟩ := List.mem_filter.mp hmem
    rw [List.mem_singleton.mp hmem] at hne ⊢
    exact isEntryName_stem (by simpa using hne)

/-- The first name below the folder of all generated files that leads to a table's file. -/
theorem exists_isGenerated_generatedFile (settings : Settings) (table : Text) :
    ∃ name rest, IsGenerated settings (generatedFile settings table) (name :: rest) ∧
      (name = TableName.stem table ∨ '.' ∈ name) := by
  have h := isGenerated_generatedFile settings table
  by_cases hstem : TableName.stem table = []
  · rw [hstem] at h
    exact ⟨_, _, h, Or.inr (by decide)⟩
  · rw [List.filter_cons_of_pos (by simpa using hstem)] at h
    exact ⟨_, _, h, Or.inl rfl⟩

/-- Where the folder of a stem stands. An empty stem has no folder of its own. -/
theorem location_child_stem {stem : Text} (hstem : Text.IsName stem) (base : Path) :
    (base.child stem).location = base.location ++ [stem].filter (!·.isEmpty) := by
  by_cases hempty : stem = []
  · subst hempty
    rw [location_child_nil]
    exact (List.append_nil _).symm
  · rw [(isEntryName_of_isName hstem hempty).location_child, List.filter_cons_of_pos (by simpa using hempty)]
    rfl

/-- What is not generated stands beside the folder of all generated files. -/
theorem location_ne_of_top {top stem name : Text} (htop : IsEntryName top) (hne : top ≠ "_generated".toList)
    (hstem : Text.IsName stem) (hname : IsEntryName name) {path : Path} {names : List Text}
    (h : IsGenerated settings path names) :
    (((settings.outputFolder.child top).child stem).child name).location ≠ path.location := by
  rw [hname.location_child, location_child_stem hstem, htop.location_child, h.location, location_generatedFolder,
    List.append_assoc, List.append_assoc, List.append_assoc]
  intro heq
  have hcons := List.append_cancel_left heq
  exact hne (List.cons.inj hcons).1

/-! ### Files beside the generated ones -/

theorem isEntryName_of_mem_clientFiles {lib table : Text} {file : ClientFile}
    (h : file ∈ Output.clientFiles lib table) : IsEntryName file.name := by
  have hslash : ∀ before : Text, '/' ∉ before → '/' ∉ before ++ TableName.typeName table := fun before hbefore =>
    by simp [hbefore, slash_not_mem (Text.isName_upperCamel table), TableName.typeName]
  unfold Output.clientFiles at h
  rcases List.mem_cons.mp h with rfl | h
  · exact isEntryName_append (hslash "create" (by decide)) (by decide) (by decide)
  rcases List.mem_cons.mp h with rfl | h
  · exact isEntryName_append (hslash "get" (by decide)) (by decide) (by decide)
  rcases List.mem_cons.mp h with rfl | h
  · exact isEntryName_append (hslash "getAll" (by decide)) (by decide) (by decide)
  rcases List.mem_cons.mp h with rfl | h
  · exact isEntryName_append (hslash "update" (by decide)) (by decide) (by decide)
  rcases List.mem_cons.mp h with rfl | h
  · exact isEntryName_append (hslash "delete" (by decide)) (by decide) (by decide)
  · cases h

/-- The files of a table that are written once. -/
def customFiles (settings : Settings) (table : Text) : List Path :=
  ["Schema.ts".toList, "Types.ts".toList].map fun ending =>
    ((schemaFolder settings).child (TableName.stem table)).child (TableName.stem table ++ ending)

/-- The client files of a table. -/
def clientFiles (settings : Settings) (table : Text) : List Path :=
  (Output.clientFiles settings.lib table).map fun file =>
    ((clientFolder settings).child (TableName.stem table)).child file.name

theorem isEntryName_schema : IsEntryName "schema" := ⟨by decide, by decide, by decide, by decide⟩

theorem isEntryName_client : IsEntryName "client" := ⟨by decide, by decide, by decide, by decide⟩

/-- A custom file stands in the folder of the stem among the schemas. -/
theorem exists_of_mem_customFiles {table : Text} {path : Path} (h : path ∈ customFiles settings table) :
    ∃ name, IsEntryName name ∧ path = ((schemaFolder settings).child (TableName.stem table)).child name := by
  have hslash := slash_not_mem (isName_stem table)
  obtain ⟨ending, hending, rfl⟩ := List.mem_map.mp h
  refine ⟨_, ?_, rfl⟩
  rcases List.mem_pair.mp hending with rfl | rfl
  · exact isEntryName_append hslash (by decide) (by decide)
  · exact isEntryName_append hslash (by decide) (by decide)

/-- A client file stands in the folder of the stem among the client files. -/
theorem exists_of_mem_clientFiles {table : Text} {path : Path} (h : path ∈ clientFiles settings table) :
    ∃ name, IsEntryName name ∧ path = ((clientFolder settings).child (TableName.stem table)).child name := by
  obtain ⟨file, hfile, rfl⟩ := List.mem_map.mp h
  exact ⟨_, isEntryName_of_mem_clientFiles hfile, rfl⟩

/-- Writes the files of a table that are not generated anew on every run. -/
def writeBeside (settings : Settings) (table : Text) : ExceptT DiskError (StateM Store) Unit := do
  writeCustom settings table
  if settings.generateClient then writeClient settings table

theorem writeTable_eq (settings : Settings) (schema : TableSchema) :
    writeTable (m := StateM Store) settings schema =
      writeGenerated settings schema >>= fun _ => writeBeside settings schema.table := rfl

variable {path : Path} {names : List Text} {location : Location} {R : Store → Store → Prop}

theorem ensures_writeBeside (hR : Allows location R) {table : Text}
    (hcustom : ∀ path ∈ customFiles settings table, ∀ text, Ensures R (writeOnce (m := StateM Store) path text))
    (hclient : ∀ path ∈ clientFiles settings table, path.location ≠ location) :
    Ensures R (writeBeside settings table) := by
  have hC := hR.chains
  refine hC.bind ?_ fun _ => ?_
  · refine hC.bind (hR.makeFolders _) fun _ => hC.bind (hcustom _ ?_ _) fun _ => hcustom _ ?_ _
    · exact List.mem_cons_self
    · exact List.mem_cons_of_mem _ List.mem_cons_self
  · split
    · refine hC.bind (hR.makeFolders _) fun _ => hC.forM fun file hfile => hR.writeText (hclient _ ?_) _
      exact List.mem_map_of_mem hfile
    · exact hC.pure ()

/-- The files beside the generated ones are not generated. -/
theorem ensures_writeBeside_of_isGenerated (hpath : IsGenerated settings path names) (hR : Allows path.location R)
    (table : Text) : Ensures R (writeBeside settings table) := by
  refine ensures_writeBeside hR (fun other hother text => hR.chains.writeOnce (hR.writeText ?_ text))
    fun other hother => ?_
  · obtain ⟨name, hname, rfl⟩ := exists_of_mem_customFiles hother
    exact location_ne_of_top isEntryName_schema (by decide) (isName_stem table) hname hpath
  · obtain ⟨name, hname, rfl⟩ := exists_of_mem_clientFiles hother
    exact location_ne_of_top isEntryName_client (by decide) (isName_stem table) hname hpath

/-! ### Generated files -/

/-- The folder that is emptied for a table. -/
def tableFolder (settings : Settings) (table : Text) : Path := (generatedFolder settings).child (TableName.stem table)

/-- Writes the generated file of a table whose folder is empty or not there. -/
def fillTable (settings : Settings) (schema : TableSchema) : ExceptT DiskError (StateM Store) Unit := do
  makeFolders (tableFolder settings schema.table)
  MonadDisk.writeText (generatedFile settings schema.table) (Output.generatedSchema schema)

theorem exec_writeGenerated (settings : Settings) (schema : TableSchema) (store : Store) :
    exec (writeGenerated settings schema) store =
      if store.isThere (tableFolder settings schema.table) then
        match store.removeTree (tableFolder settings schema.table) with
        | .ok removed => exec (fillTable settings schema) removed
        | .error cause => (.error cause, store)
      else exec (fillTable settings schema) store := by
  have hlook : exec (writeGenerated settings schema) store =
      exec (if store.isThere (tableFolder settings schema.table) then
        change (·.removeTree (tableFolder settings schema.table)) >>= fun _ => fillTable settings schema
        else fillTable settings schema) store := by
    unfold writeGenerated
    rw [Store.exec_bind]
    rfl
  rw [hlook]
  split
  · rw [Store.exec_bind, exec_change]
    cases store.removeTree (tableFolder settings schema.table) <;> rfl
  · rfl

theorem readText_generatedFile {result : Unit} (h : exec (writeTable settings schema) store = (.ok result, after)) :
    after.readText (generatedFile settings schema.table) = .ok (Output.generatedSchema schema) := by
  rw [writeTable_eq] at h
  obtain ⟨_, middle, hgenerated, hbeside⟩ := exec_bind_eq_ok h
  have hfill : ∀ {before : Store}, exec (fillTable settings schema) before = (.ok (), middle) →
      middle.readText (generatedFile settings schema.table) = .ok (Output.generatedSchema schema) := by
    intro before hexec
    obtain ⟨_, made, -, hwrite⟩ := exec_bind_eq_ok hexec
    exact readText_of_exec_writeText hwrite
  have hread : middle.readText (generatedFile settings schema.table) = .ok (Output.generatedSchema schema) := by
    rw [exec_writeGenerated] at hgenerated
    split at hgenerated
    · split at hgenerated
      · exact hfill hgenerated
      · cases hgenerated
    · exact hfill hgenerated
  have hfile := isGenerated_generatedFile settings schema.table
  have hkeeps := ensures_writeBeside_of_isGenerated hfile (allows_keeps _) schema.table middle
  rw [hbeside] at hkeeps
  exact hkeeps.readText hread

theorem ensures_fillTable (hR : Allows location R)
    (hne : (generatedFile settings schema.table).location ≠ location) : Ensures R (fillTable settings schema) :=
  hR.chains.bind (hR.makeFolders _) fun _ => hR.writeText hne _

theorem ensures_writeGenerated (hR : Allows location R)
    (hremove : ∀ {store after}, store.removeTree (tableFolder settings schema.table) = .ok after → R store after)
    (hne : (generatedFile settings schema.table).location ≠ location) : Ensures R (writeGenerated settings schema) := by
  have hfill := ensures_fillTable hR hne
  intro store
  rw [exec_writeGenerated]
  split
  · cases hresult : store.removeTree (tableFolder settings schema.table) with
    | error cause => exact hR.refl store
    | ok removed => exact hR.trans (hremove hresult) (hfill removed)
  · exact hfill store

/-- A table with a folder of its own loses no generated file beside that. -/
theorem readText_writeTable {name : Text} {rest : List Text} {text : Text}
    (hpath : IsGenerated settings path (name :: rest)) (hstem : TableName.stem schema.table ≠ [])
    (hne : name ≠ TableName.stem schema.table) (hread : store.readText path = .ok text) :
    (exec (writeTable settings schema) store).2.readText path = .ok text := by
  have hfile := isGenerated_generatedFile settings schema.table
  rw [List.filter_cons_of_pos (by simpa using hstem)] at hfile
  have hother : (generatedFile settings schema.table).location ≠ path.location := by
    rw [hfile.location, hpath.location]
    exact fun heq => hne (List.cons.inj (List.append_cancel_left heq)).1.symm
  have hfill := ensures_fillTable (allows_keeps path.location) hother
  have hgenerated : (exec (writeGenerated settings schema) store).2.readText path = .ok text := by
    rw [exec_writeGenerated]
    split
    · cases hremove : store.removeTree (tableFolder settings schema.table) with
      | error cause => exact hread
      | ok removed =>
          -- The way to the output folder may lead through the removed folder, which is made again.
          obtain ⟨made, hmade, hagain⟩ := readText_renewed ((isEntryName_stem hstem).parts_child _)
            (isEntryName_stem hstem) hpath.parts_eq hpath.entries hne hremove hread
          have hrest := (allows_keeps path.location).writeText hother (Output.generatedSchema schema) made
          show (exec (fillTable settings schema) removed).2.readText path = .ok text
          rw [fillTable, Store.exec_bind, tableFolder, hmade]
          exact hrest.readText hagain
    · exact (hfill store).readText hread
  have hbeside := ensures_writeBeside_of_isGenerated hpath (allows_keeps path.location) schema.table
  rw [writeTable_eq]
  exact Keeps.readText ((allows_keeps path.location).chains.exec_bind (fun _ => hbeside) store) hgenerated

theorem location_tableFolder_ne_nil (settings : Settings) (table : Text) :
    (tableFolder settings table).location ≠ [] := by
  rw [tableFolder, location_child_stem (isName_stem table), location_generatedFolder, List.append_assoc]
  exact List.append_ne_nil_of_right_ne_nil _ (List.cons_ne_nil _ _)

theorem location_generatedFile_ne (settings : Settings) (table : Text) :
    (generatedFile settings table).location ≠ (recordFile settings).location := by
  rw [(isGenerated_generatedFile settings table).location, (isGenerated_recordFile settings).location]
  intro heq
  have hnames := List.append_cancel_left heq
  by_cases hstem : TableName.stem table = []
  · rw [hstem] at hnames
    revert hnames
    decide
  · rw [List.filter_cons_of_pos (by simpa using hstem)] at hnames
    cases (List.cons.inj hnames).2

/-- The folder that a table with an empty stem empties is that of all generated files. -/
theorem locate_tableFolder {table : Text} (hstem : TableName.stem table = [])
    (h : store.locate (recordFile settings) = .ok (recordFile settings).location) :
    store.locate (tableFolder settings table) = .ok (tableFolder settings table).location := by
  obtain ⟨hcheck, hleads, -, -⟩ := (locate_eq_ok_iff (isGenerated_recordFile settings).parts_eq).mp h
  have hparts : (tableFolder settings table).parts = settings.outputFolder.parts ++ ["_generated".toList] := by
    rw [tableFolder, hstem, parts_child _ List.not_mem_nil, parts_generatedFolder]
    exact List.append_nil _
  rw [parts_generatedFolder, leads_append] at hleads
  refine (locate_eq_ok_iff hparts).mpr ⟨?_, hleads.1, hleads.2.2.1, rfl⟩
  rw [tableFolder, hstem]
  exact check_child_nil (by decide) hcheck

/-- No table writes the shared file. -/
theorem addsNone_writeTable (settings : Settings) (schema : TableSchema) :
    Ensures (AddsNone (recordFile settings).location) (writeTable settings schema) := by
  have hR := allows_addsNone (recordFile settings).location
  have hgenerated : Ensures (AddsNone (recordFile settings).location) (writeGenerated settings schema) :=
    ensures_writeGenerated hR (addsNone_removeTree (location_tableFolder_ne_nil settings schema.table))
      (location_generatedFile_ne settings schema.table)
  exact hR.chains.bind hgenerated fun _ =>
    ensures_writeBeside_of_isGenerated (isGenerated_recordFile settings) hR schema.table

/-- A table with an empty stem removes the shared file. -/
theorem kind?_recordFile_writeTable {text : Text} (hstem : TableName.stem schema.table = [])
    (hread : store.readText (recordFile settings) = .ok text) (content : Content) :
    (exec (writeTable settings schema) store).2.kind? (recordFile settings).location ≠ some (.file content) := by
  have hR := allows_addsNone (recordFile settings).location
  have hfolder : (tableFolder settings schema.table).location = (generatedFolder settings).location := by
    rw [tableFolder, hstem, location_child_nil]
  have hplace := (isGenerated_recordFile settings).location
  obtain ⟨hlocate, -, hfile⟩ := readText_eq_ok_iff.mp hread
  have hkind : store.kind? (tableFolder settings schema.table).location = some .folder := by
    rw [hplace] at hfile
    rw [hfolder]
    exact kind?_eq_folder (Option.isSome_iff_exists.mpr ⟨_, hfile⟩)
  have hlocateFolder := locate_tableFolder hstem hlocate
  have hthere : store.isThere (tableFolder settings schema.table) = true := by
    rw [isThere, lookup_of_locate hlocateFolder, hkind]
    rfl
  have hremove := removeTree_of_locate hlocateFolder hkind
  intro hleft
  rw [writeTable_eq] at hleft
  have hbeside := hR.chains.exec_bind
    (fun _ => ensures_writeBeside_of_isGenerated (isGenerated_recordFile settings) hR schema.table) store hleft
  rw [exec_writeGenerated, if_pos hthere, hremove] at hbeside
  have herased := ensures_fillTable hR (location_generatedFile_ne settings schema.table) _ hbeside
  rw [kind?_erase store (location_tableFolder_ne_nil _ _), hfolder, hplace, if_pos (List.prefix_append _ _)] at herased
  cases herased

end Generation

end SurrealZod
