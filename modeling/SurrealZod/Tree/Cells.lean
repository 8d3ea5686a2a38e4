import SurrealZod.Tree.Node

/-!
# Cells

The nodes of a field tree are cells of one array. A cell holds the segment under which its parent has it, and refers
to its children or its element by their indices. An insertion walks along the steps of a path: it turns each cell on
the way into an object or a list as the next step demands, and appends a blank cell where a step leads nowhere yet.
Cells that a change of kind cuts off stay in the array, out of reach. What the cells below an index stand for is a
`FieldNode`.
-/

namespace SurrealZod

/-- What a cell stands for: a scalar, an object or a list. Children and elements are indices of other cells. -/
inductive CellKind where
  | leaf (definition : FieldDefinition)
  | branch (definition : Option FieldDefinition) (children : List (Text × Nat))
  | list (definition : Option FieldDefinition) (element : Option Nat)

structure Cell where
  segment : Text
  kind : CellKind

def Step.segment : Step → Text
  | .field name => name
  | .element => "*"

namespace Cell

/-- The cell that stands for an object about which nothing is known yet. -/
def blank (segment : Text) : Cell := { segment, kind := .branch none [] }

def definition? (cell : Cell) : Option FieldDefinition :=
  match cell.kind with
  | .leaf definition => some definition
  | .branch definition _ => definition
  | .list definition _ => definition

/-- The children of an object; other cells have none. -/
def children (cell : Cell) : List (Text × Nat) :=
  match cell.kind with
  | .branch _ children => children
  | _ => []

/-- The element of a list; other cells have none. -/
def element? (cell : Cell) : Option Nat :=
  match cell.kind with
  | .list _ element => element
  | _ => none

def link? (cell : Cell) : Step → Option Nat
  | .field name => Text.get? name cell.children
  | .element => cell.element?

/-- The cell in the kind that a step leaves from: an object before a field, a list before an element. It keeps its
definition, and what does not fit the new kind is dropped. -/
def fit (cell : Cell) : Step → Cell
  | .field _ => { cell with kind := .branch cell.definition? cell.children }
  | .element => { cell with kind := .list cell.definition? cell.element? }

def setLink (cell : Cell) (step : Step) (target : Nat) : Cell :=
  match step, cell.kind with
  | .field name, .branch definition children =>
    { cell with kind := .branch definition (Text.put name target children) }
  | .element, .list definition _ => { cell with kind := .list definition (some target) }
  | _, _ => cell

/-- The cell with the definition of its own path set. An object without children is a scalar. -/
def define (definition : FieldDefinition) (cell : Cell) : Cell :=
  match cell.kind with
  | .leaf _ | .branch _ [] => { cell with kind := .leaf definition }
  | .branch _ (child :: rest) => { cell with kind := .branch (some definition) (child :: rest) }
  | .list _ element => { cell with kind := .list (some definition) element }

/-- The node that the cell stands for, from the nodes at all indices. -/
def toNode (nodeAt : Nat → FieldNode) (cell : Cell) : FieldNode :=
  match cell.kind with
  | .leaf definition => .leaf definition
  | .branch definition children => .branch definition (children.map fun (name, child) => (name, nodeAt child))
  | .list definition element => .list definition (element.map nodeAt)

end Cell

abbrev Cells := Array Cell

namespace Cells

def link? (cells : Cells) (index : Nat) (step : Step) : Option Nat := cells[index]?.bind (·.link? step)

def follow? (cells : Cells) (index : Nat) : List Step → Option Nat
  | [] => some index
  | step :: rest => (cells.link? index step).bind (cells.follow? · rest)

/-- The cells after a step from an index that leads somewhere by all means, and where it leads. -/
def descend (cells : Cells) (index : Nat) (step : Step) : Cells × Nat :=
  let fitted : Cells := cells.modify index (·.fit step)
  match fitted.link? index step with
  | some child => (fitted, child)
  | none => ((fitted.modify index (·.setLink step cells.size)).push (.blank step.segment), cells.size)

/-- The cells with a definition placed at the end of the steps from an index. -/
def insert (definition : FieldDefinition) (cells : Cells) (index : Nat) : List Step → Cells
  | [] => cells.modify index (·.define definition)
  | step :: rest => insert definition (cells.descend index step).1 (cells.descend index step).2 rest

/-- The node at an index, with all below a depth left out. -/
def nodeTo (cells : Cells) : Nat → Nat → FieldNode
  | 0, _ => .blank
  | depth + 1, index =>
    match cells[index]? with
    | some cell => cell.toNode (nodeTo cells depth)
    | none => .blank

/-- The node at an index. Steps lead to ever later cells, so no node is deeper than there are cells. -/
def node (cells : Cells) (index : Nat) : FieldNode := cells.nodeTo cells.size index

/-- Whether two nodes are the same down to a depth: segments, kinds, definitions and what their steps lead to. -/
def sameTo (cells others : Cells) : Nat → Nat → Nat → Bool
  | 0, _, _ => false
  | depth + 1, index, other =>
    match cells[index]?, others[other]? with
    | some a, some b =>
      a.segment = b.segment &&
        match a.kind, b.kind with
        | .leaf c, .leaf d => c = d
        | .branch c as, .branch d bs =>
          c = d && as.length = bs.length &&
            (as.zip bs).all fun (m, n) => m.1 = n.1 && sameTo cells others depth m.2 n.2
        | .list c none, .list d none => c = d
        | .list c (some m), .list d (some n) => c = d && sameTo cells others depth m n
        | _, _ => false
    | _, _ => false

end Cells

end SurrealZod
