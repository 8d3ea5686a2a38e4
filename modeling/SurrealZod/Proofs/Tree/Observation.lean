import SurrealZod.Proofs.Tree.Order
import SurrealZod.Proofs.Tree.Rebuild
import SurrealZod.Proofs.Tree.Representation

/-! What can be seen of a tree from its root. Steps lead nowhere or to a node of some shape, with or without a
definition, and two trees are equal iff all steps show the same in both. So equality does not see where the cells
stand in their array, which of them are out of reach, or in which order they came. -/

namespace SurrealZod

inductive NodeShape where
  | scalar
  | object
  | list
  deriving DecidableEq

def FieldNode.shape : FieldNode → NodeShape
  | leaf _ => .scalar
  | branch _ _ => .object
  | list _ _ => .list

namespace Cell

def shape (cell : Cell) : NodeShape :=
  match cell.kind with
  | .leaf _ => .scalar
  | .branch _ _ => .object
  | .list _ _ => .list

/-- The cell with its links led to other indices. -/
def relink (place : Nat → Nat) (cell : Cell) : Cell :=
  match cell.kind with
  | .leaf _ => cell
  | .branch definition children =>
    { cell with kind := .branch definition (children.map fun child => (child.1, place child.2)) }
  | .list definition element => { cell with kind := .list definition (element.map place) }

variable {cell : Cell}

@[simp] theorem shape_toNode {f : Nat → FieldNode} : (cell.toNode f).shape = cell.shape := by
  obtain ⟨segment, kind⟩ := cell
  cases kind <;> rfl

@[simp] theorem shape_relink (place : Nat → Nat) : (cell.relink place).shape = cell.shape := by
  obtain ⟨segment, kind⟩ := cell
  cases kind <;> rfl

@[simp] theorem definition?_relink (place : Nat → Nat) : (cell.relink place).definition? = cell.definition? := by
  obtain ⟨segment, kind⟩ := cell
  cases kind <;> rfl

theorem link?_relink (place : Nat → Nat) (step : Step) :
    (cell.relink place).link? step = (cell.link? step).map place := by
  obtain ⟨segment, kind⟩ := cell
  cases kind with
  | leaf => cases step <;> rfl
  | branch own children =>
      cases step with
      | field name => exact Text.get?_map place name children
      | element => rfl
  | list own element => cases step <;> rfl

end Cell

namespace FieldTree

/-- What the steps from the root lead to: nothing, or a node of a shape with the definition that it may have. -/
def view? (tree : FieldTree) (steps : List Step) : Option (NodeShape × Option FieldDefinition) :=
  (tree.locate? steps).bind fun index => tree.cells[index]?.map fun cell => (cell.shape, cell.definition?)

/-- Whether another tree has the cells in reach of the root at other places of its array. What its other cells hold
does not matter. -/
structure Relocates (place : Nat → Nat) (tree other : FieldTree) : Prop where
  table : tree.table = other.table
  root : place 0 = 0
  cell : ∀ {p index cell}, tree.locate? p = some index → tree.cells[index]? = some cell →
    other.cells[place index]? = some (cell.relink place)

variable {tree other : FieldTree} {place : Nat → Nat}

/-! ### Views -/

theorem Sound.view?_of_locate? (h : tree.Sound) {p : List Step} {index : Nat} (hp : tree.locate? p = some index) :
    tree.view? p = some ((tree.cells.node index).shape, (tree.cells.node index).definition?) := by
  obtain ⟨cell, hcell⟩ := h.exists_cell hp
  rw [view?, hp, Option.bind_some, hcell, Option.map_some, h.linked.node_eq hcell, Cell.shape_toNode,
    Cell.definition?_toNode]

/-- A view is one of the node at the root. -/
theorem Sound.view?_eq (h : tree.Sound) (p : List Step) :
    tree.view? p = (tree.root.find? p).map fun node => (node.shape, node.definition?) := by
  cases hp : tree.locate? p with
  | none => rw [view?, hp, root, h.linked.find?_node, ← locate?, hp, Option.map_none, Option.map_none, Option.bind_none]
  | some index => rw [h.view?_of_locate? hp, h.find?_root hp, Option.map_some]

theorem Sound.lookup?_root_eq (h : tree.Sound) (p : List Step) :
    tree.root.lookup? p = (tree.view? p).map (·.2) := by
  rw [h.view?_eq, Option.map_map, FieldNode.lookup?]
  rfl

/-- Sound trees are equal iff they belong to one table and all steps show the same in both. -/
theorem Sound.beq_iff_views (h : tree.Sound) (hother : other.Sound) :
    (tree == other) = true ↔ tree.table = other.table ∧ ∀ p, tree.view? p = other.view? p := by
  rw [h.beq_iff hother]
  refine and_congr_right fun _ => ⟨fun hroot p => ?_, fun hview => ?_⟩
  · rw [h.view?_eq, hother.view?_eq, hroot]
  · apply h.record.ext_lookup? hother.record
    intro p
    rw [h.lookup?_root_eq, hother.lookup?_root_eq, hview]

/-! ### Other places -/

theorem Relocates.locate?_eq (hrelocates : Relocates place tree other) (h : tree.Sound) (p : List Step) :
    other.locate? p = (tree.locate? p).map place := by
  induction p using List.reverseRecOn with
  | nil => exact congrArg some hrelocates.root.symm
  | append_singleton p step ih =>
      rw [locate?, locate?, Cells.follow?_concat, Cells.follow?_concat, ← locate?, ← locate?, ih]
      cases hp : tree.locate? p with
      | none => rfl
      | some index =>
          obtain ⟨cell, hcell⟩ := h.exists_cell hp
          rw [Option.map_some, Option.bind_some, Option.bind_some, Cells.link?_of_getElem? hcell,
            Cells.link?_of_getElem? (hrelocates.cell hp hcell), Cell.link?_relink]

theorem Relocates.view?_eq (hrelocates : Relocates place tree other) (h : tree.Sound) (p : List Step) :
    other.view? p = tree.view? p := by
  rw [view?, view?, hrelocates.locate?_eq h]
  cases hp : tree.locate? p with
  | none => rfl
  | some index =>
      obtain ⟨cell, hcell⟩ := h.exists_cell hp
      rw [Option.map_some, Option.bind_some, Option.bind_some, hrelocates.cell hp hcell, hcell, Option.map_some,
        Option.map_some, Cell.shape_relink, Cell.definition?_relink]

/-! ### Equality -/

/-- Whether a tree comes of some history of insertions, failed ones included. -/
def IsGrown (tree : FieldTree) : Prop := ∃ table history, tree = grown table history

theorem IsGrown.sound (h : tree.IsGrown) : tree.Sound := by
  obtain ⟨table, history, rfl⟩ := h
  exact sound_grown table history

/-- Trees are equal iff they have the same table and all steps show the same in both. So equality is an equivalence,
and it cannot tell a tree from one that its definitions make up in another order, or from one that has its cells at
other places. Equal trees have the same declarations. -/
theorem beq_iff_view? {a b : FieldTree} (ha : a.IsGrown) (hb : b.IsGrown) :
    ((a == b) = true ↔ a.table = b.table ∧ ∀ p, a.view? p = b.view? p) ∧
      (a == a) = true ∧
      ((a == b) = true → (b == a) = true) ∧
      (∀ c : FieldTree, c.IsGrown → (a == b) = true → (b == c) = true → (a == c) = true) ∧
      (∀ ds, ds.Perm a.definitions → (grown a.table ds == a) = true) ∧
      (∀ place, Relocates place a b → (a == b) = true) ∧
      ((a == b) = true → ∀ kind strict, a.declaration kind strict = b.declaration kind strict) := by
  have hiff := ha.sound.beq_iff hb.sound
  refine ⟨ha.sound.beq_iff_views hb.sound, ?_, ?_, ?_, ?_, ?_, ?_⟩
  · exact (ha.sound.beq_iff ha.sound).mpr ⟨rfl, rfl⟩
  · intro heq
    obtain ⟨htable, hroot⟩ := hiff.mp heq
    exact (hb.sound.beq_iff ha.sound).mpr ⟨htable.symm, hroot.symm⟩
  · intro c hc hab hbc
    obtain ⟨htable, hroot⟩ := hiff.mp hab
    obtain ⟨htable', hroot'⟩ := (hb.sound.beq_iff hc.sound).mp hbc
    exact (ha.sound.beq_iff hc.sound).mpr ⟨htable.trans htable', hroot.trans hroot'⟩
  · intro ds hperm
    rw [(sound_grown a.table ds).beq_iff ha.sound, table_grown]
    exact ⟨rfl, ha.sound.root_grown_definitions a.table hperm⟩
  · intro place hrelocates
    rw [ha.sound.beq_iff_views hb.sound]
    exact ⟨hrelocates.table, fun p => (hrelocates.view?_eq ha.sound p).symm⟩
  · intro heq
    obtain ⟨htable, hroot⟩ := hiff.mp heq
    exact declaration_congr htable hroot

/-- A list whose object shape left a cell behind, and the same list from the definitions that it still has. -/
theorem beq_iff_view?_of_turned_into_list :
    (grown "t" turnedIntoList).IsGrown ∧ (grown "t" [{ name := "a[*].c.d" }, { name := "a" }]).IsGrown ∧
      (grown "t" turnedIntoList).cells.size ≠ (grown "t" [{ name := "a[*].c.d" }, { name := "a" }]).cells.size ∧
      ∀ p, (grown "t" turnedIntoList).view? p = (grown "t" [{ name := "a[*].c.d" }, { name := "a" }]).view? p := by
  have ha : (grown "t" turnedIntoList).IsGrown := ⟨_, _, rfl⟩
  have hb : (grown "t" [{ name := "a[*].c.d" }, { name := "a" }]).IsGrown := ⟨_, _, rfl⟩
  have heq : (grown "t" turnedIntoList == grown "t" [{ name := "a[*].c.d" }, { name := "a" }]) = true := by
    decide +kernel
  exact ⟨ha, hb, by decide +kernel, ((beq_iff_view? ha hb).1.mp heq).2⟩

end FieldTree

end SurrealZod
