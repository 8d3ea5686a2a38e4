import SurrealZod.Tree.Cells

/-!
# Field trees

The field tree of a table consolidates its field definitions: the root is the record, and each definition is inserted
at the node its path names, in declaration order. A definition that names another table is passed over, and the first
path that cannot be read fails the whole table. Two trees are equal if the nodes in reach of their roots are the same,
wherever they stand in the array.
-/

namespace SurrealZod

/-- The fields of one table as a tree. The first cell is the root. -/
structure FieldTree where
  table : Text
  cells : Cells

namespace FieldTree

/-- The tree of a table without fields. -/
def empty (table : Text) : FieldTree := { table, cells := #[.blank []] }

def root (tree : FieldTree) : FieldNode := tree.cells.node 0

/-- The index of the node that steps from the root lead to. -/
def locate? (tree : FieldTree) (steps : List Step) : Option Nat := tree.cells.follow? 0 steps

def find? (tree : FieldTree) (path : Text) : Option Nat := (FieldPath.steps? path).bind tree.locate?

/-- The tree with a definition placed at the node its name leads to. A repeated path overwrites the definition there.
A tree takes definitions of any table. -/
def insert (tree : FieldTree) (definition : FieldDefinition) : Except Error FieldTree :=
  match FieldPath.steps? definition.name with
  | some steps => .ok { tree with cells := tree.cells.insert definition 0 steps }
  | none => .error (.emptyFieldPath tree.table definition.name)

/-- Equality of trees reads the nodes in reach of the roots. -/
instance : BEq FieldTree where
  beq tree other := tree.table = other.table && tree.cells.sameTo other.cells tree.cells.size 0 0

/-- Whether a definition names another table than the given one. -/
def isForeign (table : Text) (definition : FieldDefinition) : Bool :=
  definition.table ≠ [] && definition.table ≠ table

/-- The tree of a table's definitions in declaration order. -/
def ofDefinitions (table : Text) (definitions : List FieldDefinition) : Except Error FieldTree :=
  definitions.foldlM
    (fun tree definition => if isForeign table definition then .ok tree else tree.insert definition) (empty table)

end FieldTree

end SurrealZod
