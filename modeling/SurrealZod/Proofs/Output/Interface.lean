import Mathlib.Data.List.Basic
import SurrealZod.Output.ClientFile
import SurrealZod.Proofs.Text.NameCharacters

/-! What the files of a table import from each other, and what they export. A reader of import and export
lines works on the text of a file. The schemas that one file imports from another are always exported there.
The client files name types by the stem of the table, and the file of the types by the table itself: these
imports resolve, and the functions have the names of their files, iff both ways to a type name agree. -/

namespace SurrealZod.Output

open Text

/-! ### Readers -/

def linesOf (content : Text) : List Text := content.splitOn '\n'

def isInterface (line : Text) : Bool := ("import " : Text).isPrefixOf line || ("export " : Text).isPrefixOf line

/-- The lines of a file that import or export something. -/
def interface (content : Text) : List Text := (linesOf content).filter isInterface

/-- The names in a list that commas separate. -/
def namesIn (list : Text) : List Text := (list.splitOn ',').map (·.filter (· ≠ ' '))

/-- The names that a line imports from a module. The opening of the line says whether these are types. -/
def importedBy (opening path line : Text) : List Text :=
  match dropStart? opening line with
  | none => []
  | some list =>
    if list.dropWhile (· ≠ '}') = "\x7d from \"" ++ path ++ "\";" then namesIn (list.takeWhile (· ≠ '}')) else []

/-- The name that a line exports. The opening of the line says whether this is a type. -/
def exportedBy (opening line : Text) : Option Text := (dropStart? opening line).map (·.takeWhile (· ≠ ' '))

def valueImports (path content : Text) : List Text := (interface content).flatMap (importedBy "import \x7b " path)

def typeImports (path content : Text) : List Text := (interface content).flatMap (importedBy "import type \x7b " path)

def valueExports (content : Text) : List Text := (interface content).filterMap (exportedBy "export const ")

def typeExports (content : Text) : List Text := (interface content).filterMap (exportedBy "export type ")

def schemaPath (stem : Text) : Text := "../../schema/" ++ stem ++ "/" ++ stem ++ "Schema.js"

def typesPath (stem : Text) : Text := "../../schema/" ++ stem ++ "/" ++ stem ++ "Types.js"

def generatedPath (stem : Text) : Text := "../../_generated/" ++ stem ++ "/" ++ stem ++ "SchemaGen.js"

/-! ### Reading lines -/

variable {s t : Text}

theorem linesOf_append (h : '\n' ∉ s) (t : Text) : linesOf (s ++ t) = (linesOf t).modifyHead (s ++ ·) := by
  induction s with
  | nil => exact (congrFun List.modifyHead_id (linesOf t)).symm
  | cons c s ih =>
      rw [List.mem_cons, not_or] at h
      rw [List.cons_append, linesOf, List.splitOn_eq_splitOnP, List.splitOnP_cons_eq_if_modifyHead,
        if_neg (by simpa using Ne.symm h.1), ← List.splitOn_eq_splitOnP, ← linesOf, ih h.2, List.modifyHead_modifyHead]
      rfl

theorem linesOf_append_cons (s t : Text) : linesOf (s ++ '\n' :: t) = linesOf s ++ linesOf t := by
  simp only [linesOf, List.splitOn_eq_splitOnP]
  exact List.splitOnP_append_cons s t (by decide)

theorem linesOf_of_not_mem (h : '\n' ∉ s) : linesOf s = [s] := by
  have happend := linesOf_append h []
  rw [List.append_nil] at happend
  rw [happend, linesOf, List.splitOn_nil, List.modifyHead_cons, List.append_nil]

theorem ofLines_cons (line : Text) (rest : List Text) : ofLines (line :: rest) = line ++ '\n' :: ofLines rest := by
  rw [ofLines, List.flatMap_cons, List.append_assoc, List.singleton_append, ← ofLines]

theorem linesOf_ofLines (lines : List Text) : linesOf (ofLines lines) = lines.flatMap linesOf ++ [[]] := by
  induction lines with
  | nil => rfl
  | cons line rest ih => rw [ofLines_cons, linesOf_append_cons, ih, List.flatMap_cons, List.append_assoc]

theorem interface_ofLines {lines : List Text} (h : ∀ line ∈ lines, '\n' ∉ line) :
    interface (ofLines lines) = lines.filter isInterface := by
  have hlast : [([] : Text)].filter isInterface = [] := by decide
  have hsingle : lines.flatMap linesOf = lines := by
    rw [List.flatMap_congr fun line hline => linesOf_of_not_mem (h line hline), List.flatMap_singleton']
  rw [interface, linesOf_ofLines, hsingle, List.filter_append, hlast, List.append_nil]

theorem dropStart?_append (s t : Text) : dropStart? s (s ++ t) = some t := by
  induction s with
  | nil => rfl
  | cons c s ih => simp [dropStart?, ih]

/-- A line that imports names from a module. -/
def importLine (opening list path : Text) : Text := opening ++ list ++ " \x7d from \"" ++ path ++ "\";"

/-- A line that exports a name. -/
def exportLine (opening name rest : Text) : Text := opening ++ name ++ ' ' :: rest

theorem exportedBy_exportLine {opening name : Text} (h : IsName name) (rest : Text) :
    exportedBy opening (exportLine opening name rest) = some name := by
  have hname : ∀ c ∈ name, decide (c ≠ ' ') = true := fun c hc => decide_eq_true (h.ne_of_mem hc (by decide))
  rw [exportedBy, exportLine, List.append_assoc, dropStart?_append, Option.map_some,
    List.takeWhile_append_of_pos hname, List.takeWhile_cons_of_neg (by decide), List.append_nil]

theorem filter_blank (h : IsName s) : s.filter (· ≠ ' ') = s :=
  List.filter_eq_self.mpr fun c hc => decide_eq_true (h.ne_of_mem hc (by decide))

theorem comma_not_mem (h : IsName s) : ∀ c ∈ s ++ [' '], (c == ',') = false := by
  intro c hc
  rcases List.mem_append.mp hc with hc | hc
  · exact beq_false_of_ne (h.ne_of_mem hc (by decide))
  · rw [List.mem_singleton.mp hc]
    decide

theorem namesIn_append_blank (h : IsName s) : namesIn (s ++ [' ']) = [s] := by
  rw [namesIn, List.splitOn_eq_splitOnP, List.splitOnP_eq_singleton (comma_not_mem h), List.map_singleton,
    List.filter_append, filter_blank h]
  exact congrArg (fun x => [x]) (List.append_nil s)

theorem namesIn_pair (hs : IsName s) (ht : IsName t) : namesIn (s ++ ", " ++ t ++ [' ']) = [s, t] := by
  have hfirst : ∀ c ∈ s, (c == ',') = false := fun c hc => beq_false_of_ne (hs.ne_of_mem hc (by decide))
  have hsecond : ∀ c ∈ ' ' :: (t ++ [' ']), (c == ',') = false := by
    intro c hc
    rcases List.mem_cons.mp hc with rfl | hc
    · decide
    · exact comma_not_mem ht c hc
  have hlist : s ++ ", " ++ t ++ [' '] = s ++ ',' :: ' ' :: (t ++ [' ']) := by simp
  rw [hlist, namesIn, List.splitOn_eq_splitOnP, List.splitOnP_append_cons_of_forall_mem hfirst _ (by decide),
    List.splitOnP_eq_singleton hsecond, List.map_cons, List.map_singleton, filter_blank hs,
    List.filter_cons_of_neg (by decide), List.filter_append, filter_blank ht]
  exact congrArg (fun x => [s, x]) (List.append_nil t)

theorem importedBy_importLine {list : Text} (hlist : '}' ∉ list) (opening path other : Text) :
    importedBy opening path (importLine opening list other) =
      if other = path then namesIn (list ++ [' ']) else [] := by
  have hline : importLine opening list other = opening ++ ((list ++ [' ']) ++ ("\x7d from \"" ++ other ++ "\";")) := by
    simp [importLine]
  have hnames : ∀ c ∈ list ++ [' '], decide (c ≠ '}') = true := by
    intro c hc
    rcases List.mem_append.mp hc with hc | hc
    · exact decide_eq_true fun heq => hlist (heq ▸ hc)
    · rw [List.mem_singleton.mp hc]
      decide
  have hdrop : (("\x7d from \"" ++ other ++ "\";" : Text)).dropWhile (· ≠ '}') = "\x7d from \"" ++ other ++ "\";" := rfl
  have htake : (("\x7d from \"" ++ other ++ "\";" : Text)).takeWhile (· ≠ '}') = [] := rfl
  unfold importedBy
  rw [hline, dropStart?_append]
  dsimp only
  rw [List.dropWhile_append_of_pos hnames, List.takeWhile_append_of_pos hnames, hdrop, htake, List.append_nil]
  simp only [List.append_cancel_right_eq, List.append_cancel_left_eq]

/-- A line that imports values is no line that imports types, and the other way round. -/
theorem importedBy_other (path list other : Text) :
    importedBy "import \x7b " path (importLine "import type \x7b " list other) = [] ∧
      importedBy "import type \x7b " path (importLine "import \x7b " list other) = [] :=
  ⟨rfl, rfl⟩

theorem importedBy_exportLine (path name rest : Text) :
    importedBy "import \x7b " path (exportLine "export const " name rest) = [] ∧
      importedBy "import type \x7b " path (exportLine "export const " name rest) = [] :=
  ⟨rfl, rfl⟩

theorem exportedBy_importLine (list path : Text) :
    exportedBy "export const " (importLine "import \x7b " list path) = none ∧
      exportedBy "export const " (importLine "import type \x7b " list path) = none ∧
      exportedBy "export type " (importLine "import \x7b " list path) = none :=
  ⟨rfl, rfl, rfl⟩

/-! ### The files -/

theorem importSchema_eq (names stem : Text) :
    importSchema names stem = importLine "import \x7b " names (schemaPath stem) := by
  unfold importSchema importLine schemaPath
  simp

theorem importTypes_eq (names stem : Text) :
    importTypes names stem = importLine "import type \x7b " names (typesPath stem) := by
  unfold importTypes importLine typesPath
  simp

section Client

variable {lib stem : Text} (hlib : '\n' ∉ lib) (hstem : IsName stem)

include hlib hstem

theorem interface_createContent :
    ∃ rest : Text, interface (createContent lib stem) =
      [importLine "import \x7b " "type Surreal" lib,
        importLine "import \x7b " (stem ++ "CreateSchema") (schemaPath stem),
        importLine "import type \x7b " (TableName.typeName stem ++ ", " ++ (TableName.typeName stem ++ "Create"))
          (typesPath stem),
        exportLine "export const " ("create" ++ TableName.typeName stem) rest] := by
  have hbreak : '\n' ∉ stem := hstem.newline_not_mem
  have htype : '\n' ∉ TableName.typeName stem := (isName_upperCamel stem).newline_not_mem
  refine ⟨"= async function (db: Surreal, tableName: string, data: " ++ TableName.typeName stem ++ "Create) \x7b", ?_⟩
  unfold createContent
  dsimp only
  rw [interface_ofLines, importSchema_eq, importTypes_eq]
  · unfold importLine exportLine isInterface
    simp
  · unfold importSchema importTypes
    simp [hlib, hbreak, htype]

theorem interface_getByIdContent :
    ∃ rest : Text, interface (getByIdContent lib stem) =
      [importLine "import \x7b " "RecordId, type Surreal" lib,
        importLine "import \x7b " (stem ++ "Schema") (schemaPath stem),
        importLine "import type \x7b " (TableName.typeName stem) (typesPath stem),
        exportLine "export const " ("get" ++ (TableName.typeName stem ++ "ById")) rest] := by
  have hbreak : '\n' ∉ stem := hstem.newline_not_mem
  have htype : '\n' ∉ TableName.typeName stem := (isName_upperCamel stem).newline_not_mem
  refine ⟨"= async function (db: Surreal, id: RecordId<string>) \x7b", ?_⟩
  unfold getByIdContent
  dsimp only
  rw [interface_ofLines, importSchema_eq, importTypes_eq]
  · unfold importLine exportLine isInterface
    simp
  · unfold importSchema importTypes
    simp [hlib, hbreak, htype]

theorem interface_getAllContent {table : Text} (htable : '\n' ∉ table) :
    ∃ rest : Text, interface (getAllContent lib stem table) =
      [importLine "import \x7b " "type Surreal" lib,
        importLine "import type \x7b " (TableName.typeName stem) (typesPath stem),
        exportLine "export const " ("getAll" ++ (TableName.typeName stem ++ "s")) rest] := by
  have hbreak : '\n' ∉ stem := hstem.newline_not_mem
  have htype : '\n' ∉ TableName.typeName stem := (isName_upperCamel stem).newline_not_mem
  refine ⟨"= async function (db: Surreal) \x7b", ?_⟩
  unfold getAllContent
  dsimp only
  rw [interface_ofLines, importTypes_eq]
  · unfold importLine exportLine isInterface
    simp
  · unfold importTypes
    simp [hlib, hbreak, htype, htable]

theorem interface_updateContent :
    ∃ rest : Text, interface (updateContent lib stem) =
      [importLine "import \x7b " "RecordId, type Surreal" lib,
        importLine "import \x7b " (stem ++ "CreateSchema") (schemaPath stem),
        importLine "import type \x7b " (TableName.typeName stem ++ ", " ++ (TableName.typeName stem ++ "Create"))
          (typesPath stem),
        exportLine "export const " ("update" ++ TableName.typeName stem) rest] := by
  have hbreak : '\n' ∉ stem := hstem.newline_not_mem
  have htype : '\n' ∉ TableName.typeName stem := (isName_upperCamel stem).newline_not_mem
  refine ⟨"= async function (db: Surreal, id: RecordId<string>, data: Partial<" ++ TableName.typeName stem ++
    "Create>) \x7b", ?_⟩
  unfold updateContent
  dsimp only
  rw [interface_ofLines, importSchema_eq, importTypes_eq]
  · unfold importLine exportLine isInterface
    simp
  · unfold importSchema importTypes
    simp [hlib, hbreak, htype]

theorem interface_deleteContent :
    ∃ rest : Text, interface (deleteContent lib stem) =
      [importLine "import \x7b " "type Surreal, RecordId" lib,
        importLine "import type \x7b " (TableName.typeName stem) (typesPath stem),
        exportLine "export const " ("delete" ++ TableName.typeName stem) rest] := by
  have hbreak : '\n' ∉ stem := hstem.newline_not_mem
  have htype : '\n' ∉ TableName.typeName stem := (isName_upperCamel stem).newline_not_mem
  refine ⟨"= async function (db: Surreal, id: RecordId) \x7b", ?_⟩
  unfold deleteContent
  dsimp only
  rw [interface_ofLines, importTypes_eq]
  · unfold importLine exportLine isInterface
    simp
  · unfold importTypes
    simp [hlib, hbreak, htype]

end Client

section Custom

variable {lib table : Text} (htable : '\n' ∉ table)

include htable

theorem interface_customSchema :
    ∃ rest rest' : Text, interface (customSchema table) =
      [importLine "import \x7b " "z" "zod",
        importLine "import \x7b " (TableName.inputSchema table ++ ", " ++ TableName.outputSchema table)
          (generatedPath (TableName.stem table)),
        exportLine "export const " (TableName.stem table ++ "CreateSchema") rest,
        exportLine "export const " (TableName.stem table ++ "Schema") rest'] := by
  have hbreak : '\n' ∉ TableName.stem table := (isName_lowerCamel table).newline_not_mem
  refine ⟨"= " ++ TableName.inputSchema table ++ ".merge(z.object(\x7b",
    "= " ++ TableName.outputSchema table ++ ".merge(z.object(\x7b", ?_⟩
  unfold customSchema TableName.inputSchema TableName.outputSchema
  dsimp only
  rw [interface_ofLines]
  · unfold importLine exportLine isInterface generatedPath
    simp
  · simp [hbreak, htable]

theorem interface_customTypes (hlib : '\n' ∉ lib) :
    ∃ rest rest' : Text, interface (customTypes lib table) =
      [importLine "import \x7b " "z" "zod", importLine "import \x7b " "type RecordId" lib,
        importLine "import \x7b " (TableName.stem table ++ "CreateSchema, " ++ TableName.stem table ++ "Schema")
          ("./" ++ TableName.stem table ++ "Schema.js"),
        exportLine "export type " (TableName.typeName table ++ "Create") rest,
        exportLine "export type " (TableName.typeName table) rest'] := by
  have hbreak : '\n' ∉ TableName.stem table := (isName_lowerCamel table).newline_not_mem
  have htype : '\n' ∉ TableName.typeName table := (isName_upperCamel table).newline_not_mem
  refine ⟨"= z.input<typeof " ++ TableName.stem table ++ "CreateSchema>",
    "= z.output<typeof " ++ TableName.stem table ++ "Schema> & \x7bid: RecordId<string>\x7d", ?_⟩
  unfold customTypes
  dsimp only
  rw [interface_ofLines]
  · unfold importLine exportLine isInterface
    simp
  · simp [hbreak, htype, htable, hlib]

end Custom

end SurrealZod.Output
