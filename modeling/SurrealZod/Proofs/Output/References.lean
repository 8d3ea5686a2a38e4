import SurrealZod.Proofs.Output.Interface
import SurrealZod.Proofs.Tree.Growth

/-! The files of a table refer to each other. The schemas that one file imports from another are always exported
there. The client files name types by the stem of the table, and the file of the types by the table itself:
these imports resolve, and the functions have the names of their files, iff both ways to a type name agree. -/

namespace SurrealZod.Output

open Text

/-! ### What the files import and export -/

/-- What a client file imports from its table's schemas and types, and the function that it exports. -/
structure IsClient (stem : Text) (schemas types : List Text) (function content : Text) : Prop where
  schemas : valueImports (schemaPath stem) content = schemas
  types : typeImports (typesPath stem) content = types
  function : valueExports content = [function]

theorem IsName.brace_not_mem {t : Text} (h : IsName t) : '}' ∉ t := fun hmem => h.ne_of_mem hmem (by decide) rfl

theorem importedBy_schemas (stem : Text) {schemas : List Text} (h : ∀ schema ∈ schemas, IsName schema) :
    (schemas.map (importLine "import \x7b " · (schemaPath stem))).flatMap
        (importedBy "import \x7b " (schemaPath stem)) = schemas ∧
      (schemas.map (importLine "import \x7b " · (schemaPath stem))).flatMap
        (importedBy "import type \x7b " (typesPath stem)) = [] ∧
      (schemas.map (importLine "import \x7b " · (schemaPath stem))).filterMap (exportedBy "export const ") = [] := by
  induction schemas with
  | nil => exact ⟨rfl, rfl, rfl⟩
  | cons schema rest ih =>
      obtain ⟨hschema, hrest⟩ := List.forall_mem_cons.mp h
      obtain ⟨hvalues, htypes, hexports⟩ := ih hrest
      refine ⟨?_, ?_, ?_⟩
      · rw [List.map_cons, List.flatMap_cons, hvalues, importedBy_importLine (IsName.brace_not_mem hschema), if_pos rfl,
          namesIn_append_blank hschema, List.singleton_append]
      · rw [List.map_cons, List.flatMap_cons, htypes, (importedBy_other _ _ _).2, List.append_nil]
      · rw [List.map_cons, List.filterMap_cons_none (exportedBy_importLine _ _).1, hexports]

theorem isClient_of_interface {lib stem foreign types function rest content : Text} {schemas : List Text}
    (hlib : lib ≠ schemaPath stem) (hforeign : '}' ∉ foreign) (hschemas : ∀ schema ∈ schemas, IsName schema)
    (htypes : '}' ∉ types) (hfunction : IsName function)
    (h : interface content =
      importLine "import \x7b " foreign lib :: schemas.map (importLine "import \x7b " · (schemaPath stem)) ++
        [importLine "import type \x7b " types (typesPath stem), exportLine "export const " function rest]) :
    IsClient stem schemas (namesIn (types ++ [' '])) function content := by
  obtain ⟨hvalues, hnone, hexports⟩ := importedBy_schemas stem hschemas
  constructor
  · rw [valueImports, h, List.flatMap_append, List.flatMap_cons, hvalues, importedBy_importLine hforeign, if_neg hlib,
      List.flatMap_cons, List.flatMap_singleton, (importedBy_other _ _ _).1, (importedBy_exportLine _ _ _).1,
      List.nil_append, List.append_nil, List.append_nil]
  · rw [typeImports, h, List.flatMap_append, List.flatMap_cons, hnone, (importedBy_other _ _ _).2, List.flatMap_cons,
      List.flatMap_singleton, importedBy_importLine htypes, if_pos rfl, (importedBy_exportLine _ _ _).2,
      List.nil_append, List.append_nil, List.nil_append]
  · rw [valueExports, h, List.filterMap_append, List.filterMap_cons_none (exportedBy_importLine _ _).1, hexports,
      List.filterMap_cons_none (exportedBy_importLine _ _).2.1,
      List.filterMap_cons_some (exportedBy_exportLine hfunction rest)]
    rfl

theorem brace_not_mem_pair {s t : Text} (hs : IsName s) (ht : IsName t) : '}' ∉ s ++ ", " ++ t := by
  simp only [List.mem_append, not_or]
  exact ⟨⟨IsName.brace_not_mem hs, by decide⟩, IsName.brace_not_mem ht⟩

section Files

variable {lib stem table : Text} (hlib : '\n' ∉ lib) (hother : lib ≠ schemaPath stem) (hstem : IsName stem)

include hlib hother hstem

theorem isClient_createContent :
    IsClient stem [stem ++ "CreateSchema"] [TableName.typeName stem, TableName.typeName stem ++ "Create"]
      ("create" ++ TableName.typeName stem) (createContent lib stem) := by
  have htype : IsName (TableName.typeName stem) := isName_upperCamel stem
  have hpayload : IsName (TableName.typeName stem ++ "Create") := htype.append (by decide)
  have hschema : IsName (stem ++ "CreateSchema") := hstem.append (by decide)
  obtain ⟨rest, h⟩ := interface_createContent hlib hstem
  rw [← namesIn_pair htype hpayload]
  exact isClient_of_interface hother (by decide) (List.forall_mem_singleton.mpr hschema)
    (brace_not_mem_pair htype hpayload) (IsName.append (by decide) htype) h

theorem isClient_getByIdContent :
    IsClient stem [stem ++ "Schema"] [TableName.typeName stem] ("get" ++ (TableName.typeName stem ++ "ById"))
      (getByIdContent lib stem) := by
  have htype : IsName (TableName.typeName stem) := isName_upperCamel stem
  have hschema : IsName (stem ++ "Schema") := hstem.append (by decide)
  obtain ⟨rest, h⟩ := interface_getByIdContent hlib hstem
  rw [← namesIn_append_blank htype]
  exact isClient_of_interface hother (by decide) (List.forall_mem_singleton.mpr hschema) (IsName.brace_not_mem htype)
    (IsName.append (by decide) (htype.append (by decide))) h

theorem isClient_getAllContent (htable : '\n' ∉ table) :
    IsClient stem [] [TableName.typeName stem] ("getAll" ++ (TableName.typeName stem ++ "s"))
      (getAllContent lib stem table) := by
  have htype : IsName (TableName.typeName stem) := isName_upperCamel stem
  obtain ⟨rest, h⟩ := interface_getAllContent hlib hstem htable
  rw [← namesIn_append_blank htype]
  exact isClient_of_interface hother (by decide) (List.forall_mem_nil _) (IsName.brace_not_mem htype)
    (IsName.append (by decide) (htype.append (by decide))) h

theorem isClient_updateContent :
    IsClient stem [stem ++ "CreateSchema"] [TableName.typeName stem, TableName.typeName stem ++ "Create"]
      ("update" ++ TableName.typeName stem) (updateContent lib stem) := by
  have htype : IsName (TableName.typeName stem) := isName_upperCamel stem
  have hpayload : IsName (TableName.typeName stem ++ "Create") := htype.append (by decide)
  have hschema : IsName (stem ++ "CreateSchema") := hstem.append (by decide)
  obtain ⟨rest, h⟩ := interface_updateContent hlib hstem
  rw [← namesIn_pair htype hpayload]
  exact isClient_of_interface hother (by decide) (List.forall_mem_singleton.mpr hschema)
    (brace_not_mem_pair htype hpayload) (IsName.append (by decide) htype) h

theorem isClient_deleteContent :
    IsClient stem [] [TableName.typeName stem] ("delete" ++ TableName.typeName stem) (deleteContent lib stem) := by
  have htype : IsName (TableName.typeName stem) := isName_upperCamel stem
  obtain ⟨rest, h⟩ := interface_deleteContent hlib hstem
  rw [← namesIn_append_blank htype]
  exact isClient_of_interface hother (by decide) (List.forall_mem_nil _) (IsName.brace_not_mem htype)
    (IsName.append (by decide) htype) h

end Files

/-! ### The custom and the generated files -/

theorem valueExports_customSchema {table : Text} (htable : '\n' ∉ table) :
    valueExports (customSchema table) =
      [TableName.stem table ++ "CreateSchema", TableName.stem table ++ "Schema"] := by
  have hstem : IsName (TableName.stem table) := isName_lowerCamel table
  obtain ⟨rest, rest', h⟩ := interface_customSchema htable
  rw [valueExports, h, List.filterMap_cons_none (exportedBy_importLine _ _).1,
    List.filterMap_cons_none (exportedBy_importLine _ _).1,
    List.filterMap_cons_some (exportedBy_exportLine (hstem.append (by decide)) rest),
    List.filterMap_cons_some (exportedBy_exportLine (hstem.append (by decide)) rest'), List.filterMap_nil]

theorem typeExports_customTypes {lib table : Text} (hlib : '\n' ∉ lib) (htable : '\n' ∉ table) :
    typeExports (customTypes lib table) = [TableName.typeName table ++ "Create", TableName.typeName table] := by
  have htype : IsName (TableName.typeName table) := isName_upperCamel table
  obtain ⟨rest, rest', h⟩ := interface_customTypes htable hlib
  rw [typeExports, h, List.filterMap_cons_none (exportedBy_importLine _ _).2.2,
    List.filterMap_cons_none (exportedBy_importLine _ _).2.2, List.filterMap_cons_none (exportedBy_importLine _ _).2.2,
    List.filterMap_cons_some (exportedBy_exportLine (htype.append (by decide)) rest),
    List.filterMap_cons_some (exportedBy_exportLine htype rest'), List.filterMap_nil]

theorem valueImports_customSchema {table : Text} (htable : '\n' ∉ table) :
    valueImports (generatedPath (TableName.stem table)) (customSchema table) =
      [TableName.inputSchema table, TableName.outputSchema table] := by
  have hinput : IsName (TableName.inputSchema table) := (isName_lowerCamel table).append (by decide)
  have houtput : IsName (TableName.outputSchema table) := (isName_lowerCamel table).append (by decide)
  have hzod : ("zod" : Text) ≠ generatedPath (TableName.stem table) := by
    intro h
    have hhead : some 'z' = some '.' := congrArg List.head? h
    exact absurd hhead (by decide)
  obtain ⟨rest, rest', h⟩ := interface_customSchema htable
  rw [valueImports, h, List.flatMap_cons, importedBy_importLine (by decide), if_neg hzod, List.flatMap_cons,
    importedBy_importLine (brace_not_mem_pair hinput houtput), if_pos rfl, namesIn_pair hinput houtput,
    List.flatMap_cons, List.flatMap_singleton, (importedBy_exportLine _ _ _).1, (importedBy_exportLine _ _ _).1]
  rfl

theorem mem_valueExports {name rest : Text} (h : IsName name) {lines : List Text}
    (hline : exportLine "export const " name rest ∈ lines) : name ∈ valueExports (ofLines lines) := by
  have hbreak : '\n' ∉ ("export const " : Text) ++ name ++ [' '] := by
    simp only [List.mem_append, not_or]
    exact ⟨⟨by decide, h.newline_not_mem⟩, by decide⟩
  have hsplit : exportLine "export const " name rest = ("export const " ++ name ++ [' ']) ++ rest := by
    rw [exportLine, List.append_assoc _ [' '], List.singleton_append]
  obtain ⟨first, others, hrest⟩ := List.exists_cons_of_ne_nil (List.splitOnP_ne_nil (· == '\n') rest)
  rw [← List.splitOn_eq_splitOnP, ← linesOf] at hrest
  have hmem : exportLine "export const " name first ∈ linesOf (exportLine "export const " name rest) := by
    rw [hsplit, linesOf_append hbreak, hrest, List.modifyHead_cons, exportLine, List.append_assoc _ [' '],
      List.singleton_append]
    exact List.mem_cons_self
  refine List.mem_filterMap.mpr ⟨exportLine "export const " name first, ?_, exportedBy_exportLine h first⟩
  refine List.mem_filter.mpr ⟨?_, rfl⟩
  rw [linesOf_ofLines]
  exact List.mem_append_left _ (List.mem_flatMap.mpr ⟨_, hline, hmem⟩)

end SurrealZod.Output

namespace SurrealZod

theorem FieldTree.table_of_ofDefinitions {table : Text} {definitions : List FieldDefinition} {tree : FieldTree}
    (h : FieldTree.ofDefinitions table definitions = .ok tree) : tree.table = table := by
  have hfold : ∀ start : FieldTree, definitions.foldlM (fun tree definition =>
      if isForeign table definition then .ok tree else tree.insert definition) start = Except.ok tree →
      tree.table = start.table := by
    clear h
    induction definitions with
    | nil =>
        intro start h
        cases h
        rfl
    | cons definition rest ih =>
        intro start h
        rw [List.foldlM_cons] at h
        by_cases hforeign : isForeign table definition = true
        · rw [if_pos hforeign] at h
          exact ih start h
        · rw [if_neg hforeign] at h
          cases hinsert : start.insert definition with
          | error error =>
              rw [hinsert] at h
              cases h
          | ok next =>
              rw [hinsert] at h
              obtain ⟨p, -, hnext⟩ := insert_eq_ok hinsert
              rw [ih next h, hnext]
  exact hfold (empty table) h

/-- The schemas of a table are declarations of its own constants. -/
theorem TableSchema.ofStatements_eq_ok {statements : TableStatements} {schema : TableSchema}
    (h : TableSchema.ofStatements statements = .ok schema) :
    ∃ input output : Text,
      schema.input = "const " ++ TableName.inputSchema statements.name ++ " = " ++ input ∧
      schema.output = "const " ++ TableName.outputSchema statements.name ++ " = " ++ output := by
  unfold TableSchema.ofStatements at h
  cases htree : FieldTree.ofDefinitions statements.name (statements.fields.map FieldDefinition.ofStatement) with
  | error error =>
      rw [htree] at h
      cases h
  | ok tree =>
      rw [htree] at h
      cases h
      have htable := FieldTree.table_of_ofDefinitions htree
      refine ⟨tree.schemaExpression .input statements.isStrict, tree.schemaExpression .output statements.isStrict,
        ?_, ?_⟩
      · unfold FieldTree.declaration
        rw [htable]
        rfl
      · unfold FieldTree.declaration
        rw [htable]
        rfl

namespace Output

open Text

theorem mem_valueExports_generatedSchema {statements : TableStatements} {schema : TableSchema}
    (h : TableSchema.ofStatements statements = .ok schema) :
    TableName.inputSchema statements.name ∈ valueExports (generatedSchema schema) ∧
      TableName.outputSchema statements.name ∈ valueExports (generatedSchema schema) := by
  have hstem : IsName (TableName.stem statements.name) := isName_lowerCamel statements.name
  have hinput : IsName (TableName.inputSchema statements.name) := hstem.append (by decide)
  have houtput : IsName (TableName.outputSchema statements.name) := hstem.append (by decide)
  have hexport (name body : Text) : ("export " : Text) ++ ("const " ++ name ++ " = " ++ body) ++ ";" =
      exportLine "export const " name ("= " ++ body ++ ";") := by
    unfold exportLine
    simp
  obtain ⟨input, output, hin, hout⟩ := TableSchema.ofStatements_eq_ok h
  unfold generatedSchema warning
  rw [ofLines, ofLines, ← List.flatMap_append, ← ofLines, hin, hout, hexport, hexport]
  constructor
  · exact mem_valueExports hinput
      (List.mem_append_right _ (.tail _ (.tail _ (.tail _ (.tail _ (.head _))))))
  · exact mem_valueExports houtput
      (List.mem_append_right _ (.tail _ (.tail _ (.tail _ (.tail _ (.tail _ (.tail _ (.tail _ (.head _)))))))))

/-- What one file of a table imports from another is exported there, but for the types that the client files
import: for these, and for the names of the functions, the type name of the stem has to be that of the table. -/
theorem references_resolve_iff {lib table : Text} (hlib : '\n' ∉ lib) (htable : '\n' ∉ table)
    (hother : lib ≠ schemaPath (TableName.stem table)) :
    (∀ file ∈ clientFiles lib table, ∀ name ∈ valueImports (schemaPath (TableName.stem table)) file.content,
        name ∈ valueExports (customSchema table)) ∧
      valueImports (generatedPath (TableName.stem table)) (customSchema table) =
        [TableName.inputSchema table, TableName.outputSchema table] ∧
      (∀ {statements schema}, statements.name = table → TableSchema.ofStatements statements = .ok schema →
        TableName.inputSchema table ∈ valueExports (generatedSchema schema) ∧
          TableName.outputSchema table ∈ valueExports (generatedSchema schema)) ∧
      ((∀ file ∈ clientFiles lib table,
          (∀ name ∈ typeImports (typesPath (TableName.stem table)) file.content,
            name ∈ typeExports (customTypes lib table)) ∧
          ∃ function : Text, valueExports file.content = [function] ∧ file.name = function ++ ".ts") ↔
        TableName.typeName (TableName.stem table) = TableName.typeName table) := by
  have hstem : IsName (TableName.stem table) := isName_lowerCamel table
  have hcreate := isClient_createContent hlib hother hstem
  have hget := isClient_getByIdContent hlib hother hstem
  have hlist := isClient_getAllContent hlib hother hstem htable
  have hupdate := isClient_updateContent hlib hother hstem
  have hdelete := isClient_deleteContent hlib hother hstem
  refine ⟨?_, valueImports_customSchema htable, ?_, ?_⟩
  · rw [valueExports_customSchema htable]
    unfold clientFiles
    dsimp only
    simp only [List.forall_mem_cons, hcreate.schemas, hget.schemas, hlist.schemas, hupdate.schemas, hdelete.schemas]
    simp
  · rintro statements schema rfl h
    exact mem_valueExports_generatedSchema h
  · rw [typeExports_customTypes hlib htable]
    constructor
    · intro h
      obtain ⟨-, function, hfunction, hname⟩ := h _ List.mem_cons_self
      rw [hcreate.function] at hfunction
      cases hfunction
      have hnames := List.append_cancel_right hname
      exact (List.append_cancel_left hnames).symm
    · intro heq
      unfold clientFiles
      dsimp only
      simp only [List.forall_mem_cons, hcreate.types, hget.types, hlist.types, hupdate.types, hdelete.types,
        hcreate.function, hget.function, hlist.function, hupdate.function, hdelete.function, heq]
      simp

/-- Words of several letters: all references resolve. -/
theorem references_resolve_user_profile :
    '\n' ∉ ("surrealdb.js" : Text) ∧ '\n' ∉ ("user_profile" : Text) ∧
      ("surrealdb.js" : Text) ≠ schemaPath (TableName.stem "user_profile") ∧
      TableSchema.ofStatements { name := "user_profile" } = .ok
        { table := "user_profile", strict := false,
          input := "const userProfileInputSchemaGen = z.object(\x7b\x7d).passthrough()",
          output := "const userProfileOutputSchemaGen = z.object(\x7b\x7d).passthrough()" } ∧
      ∀ file ∈ clientFiles "surrealdb.js" "user_profile",
        ∀ name ∈ typeImports (typesPath (TableName.stem "user_profile")) file.content,
          name ∈ typeExports (customTypes "surrealdb.js" "user_profile") := by
  have hlib : '\n' ∉ ("surrealdb.js" : Text) := by decide
  have htable : '\n' ∉ ("user_profile" : Text) := by decide
  have hother : ("surrealdb.js" : Text) ≠ schemaPath (TableName.stem "user_profile") := by decide +kernel
  have heq : TableName.typeName (TableName.stem "user_profile") = TableName.typeName "user_profile" := by
    decide +kernel
  obtain ⟨-, -, -, hiff⟩ := references_resolve_iff hlib htable hother
  exact ⟨hlib, htable, hother, rfl, fun file hfile => (hiff.mpr heq file hfile).1⟩

/-- Words of one letter: the stem `aBC` makes the type name `ABc`, but the type is called `ABC`. -/
theorem unresolved_type_of_one_letter_words :
    ∃ file ∈ clientFiles "surrealdb.js" "a_b_c",
      ∃ name ∈ typeImports (typesPath (TableName.stem "a_b_c")) file.content,
        name ∉ typeExports (customTypes "surrealdb.js" "a_b_c") := by
  decide +kernel

end Output

end SurrealZod
