import SurrealZod.Proofs.Tree.Growth
import SurrealZod.Zod.Declaration

/-! Computed fields. The database computes a field whose definition has a value clause, so the input schema
leaves it out, with all that is below it. Pruning a tree cuts the links to such fields and changes nothing
else: it may leave an object without children or a list without an element. The input schema of a tree is
the output schema of the pruned tree. -/

namespace SurrealZod

namespace FieldDefinition

/-- Whether a definition has a value clause, even an empty one. -/
def isComputed (definition : FieldDefinition) : Bool := definition.value.isSome

end FieldDefinition

namespace SchemaKind

@[simp] theorem omits_input (definition : Option FieldDefinition) :
    input.omits definition = definition.any (·.isComputed) := by
  cases definition <;> rfl

@[simp] theorem omits_output (definition : Option FieldDefinition) : output.omits definition = false := rfl

end SchemaKind

namespace FieldNode

def isComputed (node : FieldNode) : Bool := node.definition?.any (·.isComputed)

mutual

/-- The node without the computed fields below it. -/
def prune : FieldNode → FieldNode
  | leaf definition => leaf definition
  | branch definition children => branch definition (pruneChildren children)
  | list definition none => list definition none
  | list definition (some element) => list definition (if element.isComputed then none else some (prune element))

def pruneChildren : List (Text × FieldNode) → List (Text × FieldNode)
  | [] => []
  | (name, node) :: rest =>
    if node.isComputed then pruneChildren rest else (name, prune node) :: pruneChildren rest

end

theorem pruneChildren_eq (children : List (Text × FieldNode)) :
    pruneChildren children =
      (children.filter (!·.2.isComputed)).map fun child => (child.1, child.2.prune) := by
  induction children with
  | nil => rw [pruneChildren, List.filter_nil, List.map_nil]
  | cons child rest ih =>
      obtain ⟨name, node⟩ := child
      rw [pruneChildren, ih]
      cases hcomputed : node.isComputed <;> simp [hcomputed]

/-! ### Fragments -/

mutual

/-- What the input schema has of a node is what the output schema has of the pruned node. -/
theorem fragment?_input (depth : Nat) : (node : FieldNode) →
    fragment? .input depth node = if node.isComputed then none else fragment? .output depth node.prune
  | leaf definition => by simp [fragment?, prune, isComputed, definition?]
  | branch definition children => by
      simp [fragment?, prune, isComputed, definition?, properties_input (depth + 1) children]
  | list definition none => by simp [fragment?, prune, isComputed, definition?]
  | list definition (some element) => by
      rw [fragment?, fragment?_input depth element, prune]
      cases hcomputed : element.isComputed <;> simp [fragment?, isComputed, definition?]

theorem properties_input (depth : Nat) : (children : List (Text × FieldNode)) →
    properties .input depth children = properties .output depth (pruneChildren children)
  | [] => by rw [pruneChildren, properties, properties]
  | (name, node) :: rest => by
      rw [properties, fragment?_input depth node, properties_input depth rest, pruneChildren]
      cases hcomputed : node.isComputed <;> simp [properties]

end

end FieldNode

/-! ### Trees -/

namespace Cell

/-- The cell without its links to some of the indices. -/
def unlink (drops : Nat → Bool) (cell : Cell) : Cell :=
  match cell.kind with
  | .leaf _ => cell
  | .branch definition children => { cell with kind := .branch definition (children.filter (!drops ·.2)) }
  | .list definition element => { cell with kind := .list definition (element.filter (!drops ·)) }

variable (drops : Nat → Bool) (cell : Cell)

@[simp] theorem segment_unlink : (cell.unlink drops).segment = cell.segment := by
  obtain ⟨segment, kind⟩ := cell
  cases kind <;> rfl

variable {cell}

theorem ascending_unlink (h : Text.Ascending cell.children) : Text.Ascending (cell.unlink drops).children := by
  obtain ⟨segment, kind⟩ := cell
  cases kind with
  | branch own children => exact h.filter _
  | _ => exact List.Pairwise.nil

theorem link?_unlink (h : Text.Ascending cell.children) (step : Step) :
    (cell.unlink drops).link? step = (cell.link? step).filter (!drops ·) := by
  obtain ⟨segment, kind⟩ := cell
  cases step with
  | element => cases kind <;> rfl
  | field name =>
      cases kind with
      | branch own children =>
          have hchildren : Text.Ascending children := h
          apply Option.ext
          intro target
          show Text.get? name (children.filter (!drops ·.2)) = some target ↔
            (Text.get? name children).filter (!drops ·) = some target
          have hfiltered : Text.Ascending (children.filter (!drops ·.2)) := hchildren.filter _
          rw [hfiltered.get?_eq_some_iff, List.mem_filter, Option.filter_eq_some_iff, hchildren.get?_eq_some_iff]
      | _ => rfl

end Cell

namespace Cells

/-- Whether the cell at an index has the definition of a computed field. -/
def isComputed (cells : Cells) (index : Nat) : Bool :=
  (cells[index]?.bind (·.definition?)).any (·.isComputed)

/-- The cells without the links to computed fields. -/
def prune (cells : Cells) : Cells := cells.map (·.unlink cells.isComputed)

variable {cells : Cells}

theorem getElem?_prune (cells : Cells) (index : Nat) :
    cells.prune[index]? = cells[index]?.map (·.unlink cells.isComputed) := Array.getElem?_map

theorem Linked.link?_prune (h : cells.Linked) (index : Nat) (step : Step) :
    cells.prune.link? index step = (cells.link? index step).filter (!cells.isComputed ·) := by
  rw [link?, getElem?_prune, link?]
  cases hcell : cells[index]? with
  | none => rfl
  | some cell => exact Cell.link?_unlink _ (h.ascending hcell) step

/-- Where links are cut, no way leads that did not lead there before. -/
theorem Linked.prune (h : cells.Linked) : cells.prune.Linked := by
  have hold {i s j} (hlink : cells.prune.link? i s = some j) : cells.link? i s = some j := by
    rw [h.link?_prune] at hlink
    exact (Option.filter_eq_some_iff.mp hlink).1
  have hcell {i : Nat} {cell : Cell} (hi : cells.prune[i]? = some cell) :
      ∃ old, cells[i]? = some old ∧ old.unlink cells.isComputed = cell := by
    rw [getElem?_prune] at hi
    exact Option.map_eq_some_iff.mp hi
  constructor
  · intro i s j hlink
    simpa [Cells.prune] using h.forward (hold hlink)
  · intro i j s t k hi hj
    exact h.unique (hold hi) (hold hj)
  · intro i s j cell hlink hj
    obtain ⟨old, hget, rfl⟩ := hcell hj
    exact (Cell.segment_unlink _ old).trans (h.segment (hold hlink) hget)
  · intro i cell hi
    obtain ⟨old, hget, rfl⟩ := hcell hi
    exact Cell.ascending_unlink _ (h.ascending hget)

theorem Linked.isComputed_node (h : cells.Linked) (index : Nat) :
    (cells.node index).isComputed = cells.isComputed index := by
  rw [FieldNode.isComputed, h.definition?_node, isComputed]

/-- The pruned cells stand for the pruned nodes. -/
theorem Linked.node_prune (h : cells.Linked) (index : Nat) :
    cells.prune.node index = (cells.node index).prune := by
  generalize hdistance : cells.size - index = distance
  induction distance using Nat.strong_induction_on generalizing index with
  | _ distance ih =>
      cases hcell : cells[index]? with
      | none =>
          rw [node_eq_blank hcell, node_eq_blank (by rw [getElem?_prune, hcell, Option.map_none])]
          rfl
      | some cell =>
          have hpruned : cells.prune[index]? = some (cell.unlink cells.isComputed) := by
            rw [getElem?_prune, hcell, Option.map_some]
          have hbelow {step : Step} {target : Nat} (hlink : cell.link? step = some target) :
              cells.prune.node target = (cells.node target).prune := by
            have hforward := h.forward ((link?_of_getElem? hcell step).trans hlink)
            exact ih _ (by omega) target rfl
          rw [h.node_eq hcell, h.prune.node_eq hpruned]
          obtain ⟨segment, kind⟩ := cell
          cases kind with
          | leaf definition => rw [Cell.unlink, Cell.toNode, Cell.toNode, FieldNode.prune]
          | branch definition children =>
              have hascending : Text.Ascending children := h.ascending hcell
              have hkept (child : Text × Nat) : (!(cells.node child.2).isComputed) = !cells.isComputed child.2 := by
                rw [h.isComputed_node]
              simp only [Cell.unlink, Cell.toNode, FieldNode.prune, FieldNode.pruneChildren_eq, List.filter_map,
                List.map_map, Function.comp_def, hkept]
              refine congrArg (FieldNode.branch _) (List.map_congr_left fun child hchild => ?_)
              have hlink : Text.get? child.1 children = some child.2 :=
                hascending.get?_of_mem (List.mem_filter.mp hchild).1
              rw [@hbelow (.field child.1) child.2 hlink]
          | list definition element =>
              cases element with
              | none => rfl
              | some target =>
                  simp only [Cell.unlink, Cell.toNode, Option.map_some, FieldNode.prune, h.isComputed_node]
                  cases hcomputed : cells.isComputed target with
                  | true => simp [Option.filter, hcomputed]
                  | false => simp [Option.filter, hcomputed, @hbelow .element target rfl]

end Cells

namespace FieldTree

/-- The tree without its computed fields. -/
def prune (tree : FieldTree) : FieldTree := { tree with cells := tree.cells.prune }

variable {tree other : FieldTree}

@[simp] theorem table_prune (tree : FieldTree) : tree.prune.table = tree.table := rfl

theorem Sound.root_prune (h : tree.Sound) : tree.prune.root = tree.root.prune := h.linked.node_prune 0

/-- The body of the input schema is that of the pruned tree's output schema. -/
theorem Sound.schemaExpression_input (h : tree.Sound) (strict : Bool) :
    tree.schemaExpression .input strict = tree.prune.schemaExpression .output strict := by
  obtain ⟨children, hroot, -⟩ := h.record
  simp only [schemaExpression, h.root_prune, hroot, FieldNode.prune, FieldNode.children,
    FieldNode.properties_input]

/-- Pruned trees are equal iff they belong to one table and are pruned to the same record. -/
theorem Sound.prune_beq_iff (h : tree.Sound) (hother : other.Sound) :
    (tree.prune == other.prune) = true ↔ tree.table = other.table ∧ tree.root.prune = other.root.prune := by
  obtain ⟨children, hcell⟩ := h.root_cell
  obtain ⟨others, hcell'⟩ := hother.root_cell
  have hpruned := (Cells.getElem?_prune tree.cells 0).trans (congrArg _ hcell)
  have hpruned' := (Cells.getElem?_prune other.cells 0).trans (congrArg _ hcell')
  show (decide (tree.table = other.table) &&
    tree.cells.prune.sameTo other.cells.prune tree.cells.prune.size 0 0) = true ↔ _
  rw [Bool.and_eq_true, decide_eq_true_iff,
    h.linked.prune.sameTo_iff hother.linked.prune (Nat.sub_le _ _) hpruned hpruned', ← h.root_prune,
    ← hother.root_prune]
  exact and_congr_right fun _ => and_iff_right rfl

/-- But for its name, the input schema of a table is the output schema of the pruned tree. So trees that
differ in computed fields only, and in what is below these, have the same input schema. -/
theorem input_declaration_eq_output_prune (table : Text) (history : List FieldDefinition) :
    (∀ strict, ∃ body : Text,
      (grown table history).declaration .input strict =
        "const " ++ TableName.inputSchema table ++ " = " ++ body ∧
      (grown table history).prune.declaration .output strict =
        "const " ++ TableName.outputSchema table ++ " = " ++ body) ∧
    ∀ {table' : Text} {history' : List FieldDefinition},
      ((grown table history).prune == (grown table' history').prune) = true →
      ∀ strict, (grown table history).declaration .input strict =
        (grown table' history').declaration .input strict := by
  have h := sound_grown table history
  have htable := table_grown table history
  constructor
  · intro strict
    refine ⟨(grown table history).schemaExpression .input strict, ?_, ?_⟩
    · unfold declaration
      rw [htable, SchemaKind.schemaName]
    · unfold declaration
      rw [h.schemaExpression_input, table_prune, htable, SchemaKind.schemaName]
  · intro table' history' heq strict
    have h' := sound_grown table' history'
    obtain ⟨hsame, hroot⟩ := (h.prune_beq_iff h').mp heq
    have hbody : (grown table history).prune.schemaExpression .output strict =
        (grown table' history').prune.schemaExpression .output strict := by
      simp only [schemaExpression, h.root_prune, h'.root_prune, hroot]
    unfold declaration
    rw [hsame, h.schemaExpression_input, h'.schemaExpression_input, hbody]

/-- Two tables that differ below a computed object and in the type of a computed element. -/
theorem input_declaration_of_computed_object_and_element :
    ((grown "t" [{ name := "a", value := some [] }, { name := "b.*", value := some "1" }]).prune ==
      (grown "t" [{ name := "b[]", value := some "2", fieldType := some "int" }, { name := "a.c" },
        { name := "a", value := some "3" }]).prune) = true ∧
    ∀ strict,
      (grown "t" [{ name := "a", value := some [] }, { name := "b.*", value := some "1" }]).declaration
        .input strict =
      (grown "t" [{ name := "b[]", value := some "2", fieldType := some "int" }, { name := "a.c" },
        { name := "a", value := some "3" }]).declaration .input strict := by
  have heq : ((grown "t" [{ name := "a", value := some [] }, { name := "b.*", value := some "1" }]).prune ==
      (grown "t" [{ name := "b[]", value := some "2", fieldType := some "int" }, { name := "a.c" },
        { name := "a", value := some "3" }]).prune) = true := by decide +kernel
  exact ⟨heq, (input_declaration_eq_output_prune _ _).2 heq⟩

end FieldTree

end SurrealZod
