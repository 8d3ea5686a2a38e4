import SurrealZod.Proofs.Tree.Growth

/-! How a tree lies in its cells. Insertions convert cells in both directions and leave cells behind that
nothing leads to any more; what is in reach of the root is nevertheless a finite tree without loose ends,
in which each definition stands where its own name leads. -/

namespace SurrealZod

namespace Cell

variable {cell : Cell} {f : Nat → FieldNode}

theorem kind_of_toNode_eq_leaf {definition : FieldDefinition} (h : cell.toNode f = .leaf definition) :
    cell.kind = .leaf definition := by
  obtain ⟨segment, kind⟩ := cell
  cases kind <;> cases h
  rfl

theorem children_ne_nil_of_complete {segment : Text} {own : Option FieldDefinition} {children : List (Text × Nat)}
    (h : (toNode f { segment, kind := .branch own children }).Complete) : children ≠ [] := by
  rintro rfl
  cases h with
  | branch _ hne => exact hne rfl

theorem exists_element_of_complete {segment : Text} {own : Option FieldDefinition} {element : Option Nat}
    (h : (toNode f { segment, kind := .list own element }).Complete) : ∃ target, element = some target := by
  cases element with
  | none => cases h
  | some target => exact ⟨target, rfl⟩

end Cell

namespace FieldTree

variable {tree : FieldTree}

theorem Sound.find?_root (h : tree.Sound) {p : List Step} {index : Nat} (hp : tree.locate? p = some index) :
    tree.root.find? p = some (tree.cells.node index) := by
  rw [root, h.linked.find?_node, ← locate?, hp, Option.map_some]

theorem Sound.lt_size_of_locate? (h : tree.Sound) {p : List Step} {index : Nat}
    (hp : tree.locate? p = some index) : index < tree.cells.size :=
  h.linked.follow?_lt_size h.size_pos hp

theorem locate?_concat {p : List Step} {index : Nat} (hp : tree.locate? p = some index) (step : Step) :
    tree.locate? (p ++ [step]) = tree.cells.link? index step := by
  rw [locate?, Cells.follow?_concat, ← locate?, hp, Option.bind_some]

/-- Below the root nothing is left open. -/
theorem Sound.complete_of_locate? (h : tree.Sound) {p : List Step} {index : Nat} (hne : p ≠ [])
    (hp : tree.locate? p = some index) {cell : Cell} (hcell : tree.cells[index]? = some cell) :
    (cell.toNode tree.cells.node).Complete := by
  rw [← h.linked.node_eq hcell]
  exact h.record.of_find? hne (h.find?_root hp)

/-- The shape of a tree in its cells. -/
structure WellFormed (tree : FieldTree) : Prop where
  /-- The root is an object without a definition. -/
  root_cell : ∃ children, tree.cells[0]? = some { segment := [], kind := .branch none children }
  /-- Steps lead to cells. -/
  cell : ∀ {p index}, tree.locate? p = some index → ∃ cell, tree.cells[index]? = some cell
  /-- Different steps lead to different cells, so no way down meets a cell twice. -/
  once : ∀ {p q index}, tree.locate? p = some index → tree.locate? q = some index → p = q
  /-- No way down is longer than there are cells. -/
  finite : ∀ {p index}, tree.locate? p = some index → p.length < tree.cells.size
  /-- Children are in the order of their names and bear them as segments, each at the end of the step. -/
  child : ∀ {p index segment own children}, tree.locate? p = some index →
    tree.cells[index]? = some { segment, kind := .branch own children } →
    Text.Ascending children ∧ ∀ {name target}, (name, target) ∈ children →
      tree.locate? (p ++ [.field name]) = some target ∧
        ∃ kind, tree.cells[target]? = some { segment := name, kind }
  /-- A list has an element, which is at the end of the step and bears the segment of elements. -/
  element : ∀ {p index segment own element}, tree.locate? p = some index →
    tree.cells[index]? = some { segment, kind := .list own element } →
    ∃ target kind, element = some target ∧ tree.locate? (p ++ [.element]) = some target ∧
      tree.cells[target]? = some { segment := "*", kind }
  /-- An object below the root has children. -/
  children_ne_nil : ∀ {p index segment own children}, p ≠ [] → tree.locate? p = some index →
    tree.cells[index]? = some { segment, kind := .branch own children } → children ≠ []
  /-- A way down that cannot be gone on ends at a scalar. -/
  leaf : ∀ {p index}, p ≠ [] → tree.locate? p = some index → (∀ step, tree.locate? (p ++ [step]) = none) →
    ∃ segment definition, tree.cells[index]? = some { segment, kind := .leaf definition }
  /-- A definition stands at the end of the steps of its own name, and nowhere else. -/
  placed : ∀ {p index cell definition}, tree.locate? p = some index → tree.cells[index]? = some cell →
    cell.definition? = some definition →
    FieldPath.steps? definition.name = some p ∧ tree.find? definition.name = some index

theorem Sound.exists_cell (h : tree.Sound) {p : List Step} {index : Nat} (hp : tree.locate? p = some index) :
    ∃ cell, tree.cells[index]? = some cell :=
  ⟨_, Array.getElem?_eq_getElem (h.lt_size_of_locate? hp)⟩

theorem Sound.length_lt_size (h : tree.Sound) {p : List Step} {index : Nat} (hp : tree.locate? p = some index) :
    p.length < tree.cells.size := by
  have hlt := h.lt_size_of_locate? hp
  have hle := h.linked.add_length_le_of_follow? hp
  omega

/-- A link leads where its step leads, to a cell with the segment of the step. -/
theorem Sound.locate?_of_link? (h : tree.Sound) {p : List Step} {index target : Nat} {cell : Cell} {step : Step}
    (hp : tree.locate? p = some index) (hcell : tree.cells[index]? = some cell)
    (hlink : cell.link? step = some target) :
    tree.locate? (p ++ [step]) = some target ∧
      ∃ kind, tree.cells[target]? = some { segment := step.segment, kind } := by
  have hstep : tree.cells.link? index step = some target := (Cells.link?_of_getElem? hcell step).trans hlink
  constructor
  · rw [locate?_concat hp, hstep]
  · exact h.linked.exists_target hstep

theorem Sound.exists_element (h : tree.Sound) {p : List Step} {index : Nat} {segment : Text}
    {own : Option FieldDefinition} {element : Option Nat} (hp : tree.locate? p = some index)
    (hcell : tree.cells[index]? = some { segment, kind := .list own element }) :
    ∃ target, element = some target := by
  have hne : p ≠ [] := by
    rintro rfl
    obtain ⟨children, hroot⟩ := h.root_cell
    cases hp
    cases hroot.symm.trans hcell
  exact Cell.exists_element_of_complete (h.complete_of_locate? hne hp hcell)

theorem Sound.leaf_of_end (h : tree.Sound) {p : List Step} {index : Nat} (hne : p ≠ [])
    (hp : tree.locate? p = some index) (hend : ∀ step, tree.locate? (p ++ [step]) = none) :
    ∃ segment definition, tree.cells[index]? = some { segment, kind := .leaf definition } := by
  obtain ⟨⟨segment, kind⟩, hcell⟩ := h.exists_cell hp
  have hstep (step : Step) : (Cell.toNode tree.cells.node { segment, kind }).step? step = none := by
    rw [Cell.step?_toNode, ← Cells.link?_of_getElem? hcell, ← locate?_concat hp, hend, Option.map_none]
  obtain ⟨definition, hleaf⟩ := (h.complete_of_locate? hne hp hcell).eq_leaf_of_step?_eq_none hstep
  have hkind : kind = .leaf definition := Cell.kind_of_toNode_eq_leaf hleaf
  subst hkind
  exact ⟨segment, definition, hcell⟩

theorem Sound.steps?_of_definition? (h : tree.Sound) {p : List Step} {index : Nat} {cell : Cell}
    {definition : FieldDefinition} (hp : tree.locate? p = some index) (hcell : tree.cells[index]? = some cell)
    (hdefinition : cell.definition? = some definition) : FieldPath.steps? definition.name = some p := by
  apply h.placed
  rw [FieldNode.lookup?, h.find?_root hp, Option.map_some, h.linked.definition?_node, hcell, Option.bind_some,
    hdefinition]

/-- Every history of insertions, failed ones included, gives a well-formed tree. -/
theorem wellFormed_grown (table : Text) (history : List FieldDefinition) : (grown table history).WellFormed := by
  have h := sound_grown table history
  constructor
  · exact h.root_cell
  · exact h.exists_cell
  · exact h.linked.follow?_injective
  · exact h.length_lt_size
  · intro p index segment own children hp hcell
    have hascending : Text.Ascending children := h.linked.ascending hcell
    refine ⟨hascending, ?_⟩
    intro name target hchild
    exact @Sound.locate?_of_link? _ h p index target _ (.field name) hp hcell (hascending.get?_of_mem hchild)
  · intro p index segment own element hp hcell
    obtain ⟨target, rfl⟩ := h.exists_element hp hcell
    obtain ⟨hlocate, kind, htarget⟩ := @Sound.locate?_of_link? _ h p index target _ .element hp hcell rfl
    exact ⟨target, kind, rfl, hlocate, htarget⟩
  · intro p index segment own children hne hp hcell
    exact Cell.children_ne_nil_of_complete (h.complete_of_locate? hne hp hcell)
  · exact h.leaf_of_end
  · intro p index cell definition hp hcell hdefinition
    have hsteps := h.steps?_of_definition? hp hcell hdefinition
    refine ⟨hsteps, ?_⟩
    rw [find?, hsteps, Option.bind_some, hp]

end FieldTree

end SurrealZod
