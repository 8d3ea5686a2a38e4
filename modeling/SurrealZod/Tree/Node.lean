import SurrealZod.Field.Definition
import SurrealZod.Field.Path
import SurrealZod.Text.Keyed

/-!
# Field nodes

The fields of a table form a tree. A node is a scalar, an object whose children are keyed by field name in code-point
order, or a list with at most one node for all its elements. A definition sits at the node its path leads to, and an
object or a list on the way to other fields need not have one. Insertion follows the steps of a path: it turns each
node on the way into an object or a list as the next step demands, and this never loses the definition of that node.
-/

namespace SurrealZod

inductive FieldNode where
  /-- A scalar with its definition. -/
  | leaf (definition : FieldDefinition)
  /-- An object, with its own definition if its path was declared. -/
  | branch (definition : Option FieldDefinition) (children : List (Text × FieldNode))
  /-- A list, with its own definition if its path was declared. -/
  | list (definition : Option FieldDefinition) (element : Option FieldNode)

namespace FieldNode

/-- The node that stands for an object about which nothing is known yet. -/
def blank : FieldNode := .branch none []

def definition? : FieldNode → Option FieldDefinition
  | leaf definition => some definition
  | branch definition _ => definition
  | list definition _ => definition

/-- The children of an object; other nodes have none. -/
def children : FieldNode → List (Text × FieldNode)
  | branch _ children => children
  | _ => []

/-- The element of a list; other nodes have none. -/
def element? : FieldNode → Option FieldNode
  | list _ element => element
  | _ => none

def step? (node : FieldNode) : Step → Option FieldNode
  | .field name => Text.get? name node.children
  | .element => node.element?

def find? (node : FieldNode) : List Step → Option FieldNode
  | [] => some node
  | step :: rest => (node.step? step).bind (·.find? rest)

/-- The node with the definition of its own path set. An object without children is a scalar. -/
def define (definition : FieldDefinition) : FieldNode → FieldNode
  | leaf _ => leaf definition
  | branch _ [] => leaf definition
  | branch _ (child :: rest) => branch (some definition) (child :: rest)
  | list _ element => list (some definition) element

/-- The node with a definition placed at the end of the steps. A node on the way becomes an object before a field step
and a list before an element step; it keeps its definition, and what does not fit the new kind is dropped. -/
def insert (definition : FieldDefinition) : List Step → FieldNode → FieldNode
  | [], node => node.define definition
  | .field name :: rest, node =>
    branch node.definition?
      (Text.put name (insert definition rest ((Text.get? name node.children).getD blank)) node.children)
  | .element :: rest, node =>
    list node.definition? (some (insert definition rest (node.element?.getD blank)))

end FieldNode

end SurrealZod
