import SurrealZod.Proofs.Tree.Complete
import SurrealZod.Proofs.Tree.Equality

/-! The trees that a history of insertions can give. They are sound: their cells are linked in order, their
root is a record, and every definition sits where its name leads. An insertion keeps a tree sound, whether
it succeeds or fails, so every history does. -/

namespace SurrealZod

theorem FieldPath.exists_cons_of_steps? {path : Text} {p : List Step} (h : steps? path = some p) :
    ∃ name rest, p = .field name :: rest := by
  rw [steps?] at h
  split at h
  · rename_i name rest _
    exact ⟨name, rest, (Option.some.inj h).symm⟩
  · cases h

namespace Cells

/-- An insertion renames no cell. -/
theorem segment_insert {cells : Cells} (h : cells.Linked) {index : Nat} (hindex : index < cells.size)
    (definition : FieldDefinition) (p : List Step) {i : Nat} (hi : i < cells.size) :
    ((cells.insert definition index p)[i]?).map (·.segment) = cells[i]?.map (·.segment) := by
  induction p generalizing cells index with
  | nil =>
      rw [Cells.insert, Array.getElem?_modify]
      split
      · rw [Option.map_map]
        exact congrArg (Option.map · _) (funext fun cell => Cell.segment_define cell definition)
      · rfl
  | cons step p ih =>
      have hle := size_le_size_descend hindex step
      have hget : (cells.descend index step).1[i]? = some (cells.descend index step).1[i] :=
        Array.getElem?_eq_getElem (hi.trans_le hle)
      rw [Cells.insert, ih (h.descend hindex step) (h.target_lt_size hindex step).2 (hi.trans_le hle), hget,
        Option.map_some]
      rcases cell_of_getElem?_descend hindex hget with ⟨old, hold, hsegment, -⟩ | ⟨rfl, -⟩
      · rw [hold, hsegment, Option.map_some]
      · exact absurd hi (Nat.lt_irrefl _)

end Cells

namespace FieldTree

/-- What the tree has at the end of steps from its root: nothing, or a cell with the definition that it
may have. -/
def lookup? (tree : FieldTree) (steps : List Step) : Option (Option FieldDefinition) :=
  (tree.locate? steps).map fun index => tree.cells[index]?.bind (·.definition?)

/-- The tree after an insertion has been tried. A path that cannot be read leaves it as it was. -/
def tryInsert (tree : FieldTree) (definition : FieldDefinition) : FieldTree :=
  match tree.insert definition with
  | .ok next => next
  | .error _ => tree

/-- The tree of a table after a history of insertions, failed ones included. -/
def grown (table : Text) (history : List FieldDefinition) : FieldTree := history.foldl tryInsert (empty table)

structure Sound (tree : FieldTree) : Prop where
  linked : tree.cells.Linked
  root_cell : ∃ children, tree.cells[0]? = some { segment := [], kind := .branch none children }
  record : tree.root.Record
  placed : ∀ {p definition}, tree.root.lookup? p = some (some definition) →
    FieldPath.steps? definition.name = some p

variable {tree next : FieldTree} {definition : FieldDefinition}

theorem Sound.size_pos (h : tree.Sound) : 0 < tree.cells.size := by
  obtain ⟨children, hcell⟩ := h.root_cell
  exact (Array.getElem?_eq_some_iff.mp hcell).1

/-! ### One insertion -/

theorem insert_of_steps? {p : List Step} (hp : FieldPath.steps? definition.name = some p) :
    tree.insert definition = .ok { tree with cells := tree.cells.insert definition 0 p } := by
  rw [insert, hp]

theorem insert_eq_ok (h : tree.insert definition = .ok next) :
    ∃ p, FieldPath.steps? definition.name = some p ∧
      next = { tree with cells := tree.cells.insert definition 0 p } := by
  cases hp : FieldPath.steps? definition.name with
  | none =>
      rw [insert, hp] at h
      cases h
  | some p =>
      rw [insert_of_steps? hp] at h
      exact ⟨p, rfl, (Except.ok.inj h).symm⟩

theorem Sound.root_insert (h : tree.Sound) (definition : FieldDefinition) (p : List Step) :
    root { tree with cells := tree.cells.insert definition 0 p } = FieldNode.insert definition p tree.root :=
  h.linked.node_insert h.size_pos definition p

/-- The definition that an insertion puts somewhere is the one inserted, at the end of its path. -/
theorem placed_insert {root : FieldNode} (h : ∀ {p definition}, root.lookup? p = some (some definition) →
      FieldPath.steps? definition.name = some p) {definition : FieldDefinition} {p : List Step}
    (hp : FieldPath.steps? definition.name = some p) {q : List Step} {found : FieldDefinition}
    (hfound : (FieldNode.insert definition p root).lookup? q = some (some found)) :
    FieldPath.steps? found.name = some q := by
  by_cases hclash : FieldPath.Clash p q
  · rw [FieldNode.lookup?_insert_of_clash _ _ hclash] at hfound
    cases hfound
  · by_cases hpre : q <+: p
    · by_cases heq : q = p
      · subst heq
        rw [FieldNode.lookup?_insert_self] at hfound
        cases hfound
        exact hp
      · rw [FieldNode.lookup?_insert_of_isPrefix _ _ hpre heq] at hfound
        cases hold : root.lookup? q with
        | none =>
            rw [hold] at hfound
            cases hfound
        | some old =>
            rw [hold] at hfound
            exact h (hold.trans hfound)
    · rw [FieldNode.lookup?_insert_of_not_isPrefix _ _ hpre hclash] at hfound
      exact h hfound

theorem Sound.insert (h : tree.Sound) (hinsert : tree.insert definition = .ok next) : next.Sound := by
  obtain ⟨p, hp, rfl⟩ := insert_eq_ok hinsert
  have hroot := h.root_insert definition p
  have hlinked := h.linked.insert h.size_pos definition p
  obtain ⟨name, rest, rfl⟩ := FieldPath.exists_cons_of_steps? hp
  have hrecord : root { tree with cells := tree.cells.insert definition 0 (.field name :: rest) } |>.Record := by
    rw [hroot]
    exact h.record.insert definition name rest
  refine ⟨hlinked, ?_, hrecord, ?_⟩
  · -- The root keeps its segment, and it stands for a record.
    obtain ⟨children, hold⟩ := h.root_cell
    have hsegment := Cells.segment_insert h.linked h.size_pos definition (.field name :: rest) h.size_pos
    rw [hold, Option.map_some] at hsegment
    obtain ⟨⟨segment, kind⟩, hcell, rfl⟩ := Option.map_eq_some_iff.mp hsegment
    obtain ⟨nodes, hbranch, -⟩ := hrecord
    rw [root, hlinked.node_eq hcell] at hbranch
    cases kind with
    | branch own links =>
        cases hbranch
        exact ⟨links, hcell⟩
    | leaf => cases hbranch
    | list => cases hbranch
  · intro q found hfound
    rw [hroot] at hfound
    exact placed_insert h.placed hp hfound

/-! ### Histories -/

theorem root_empty (table : Text) : (empty table).root = .blank := by
  have hcell : (empty table).cells[0]? = some (Cell.blank []) := rfl
  exact (Cells.linked_singleton_blank []).node_eq hcell

theorem sound_empty (table : Text) : (empty table).Sound := by
  have hrecord : (empty table).root.Record := root_empty table ▸ FieldNode.record_blank
  refine ⟨Cells.linked_singleton_blank [], ⟨[], rfl⟩, hrecord, ?_⟩
  intro p definition hfound
  rw [root_empty] at hfound
  cases p with
  | nil => cases hfound
  | cons step p =>
      rw [FieldNode.lookup?, FieldNode.find?_blank_cons] at hfound
      cases hfound

theorem tryInsert_cases (tree : FieldTree) (definition : FieldDefinition) :
    tree.insert definition = .ok (tree.tryInsert definition) ∨
      FieldPath.steps? definition.name = none ∧ tree.tryInsert definition = tree := by
  cases hp : FieldPath.steps? definition.name with
  | none =>
      right
      simp [tryInsert, FieldTree.insert, hp]
  | some p =>
      left
      rw [tryInsert, insert_of_steps? hp]

theorem Sound.tryInsert (h : tree.Sound) (definition : FieldDefinition) : (tree.tryInsert definition).Sound := by
  rcases tryInsert_cases tree definition with hinsert | ⟨-, heq⟩
  · exact h.insert hinsert
  · rw [heq]
    exact h

theorem table_tryInsert (tree : FieldTree) (definition : FieldDefinition) :
    (tree.tryInsert definition).table = tree.table := by
  rcases tryInsert_cases tree definition with hinsert | ⟨-, heq⟩
  · obtain ⟨p, -, hnext⟩ := insert_eq_ok hinsert
    rw [hnext]
  · rw [heq]

theorem grown_concat (table : Text) (history : List FieldDefinition) (definition : FieldDefinition) :
    grown table (history ++ [definition]) = (grown table history).tryInsert definition := by
  rw [grown, List.foldl_append, List.foldl_cons, List.foldl_nil, ← grown]

theorem sound_grown (table : Text) (history : List FieldDefinition) : (grown table history).Sound := by
  induction history using List.reverseRecOn with
  | nil => exact sound_empty table
  | append_singleton history definition ih =>
      rw [grown_concat]
      exact ih.tryInsert definition

theorem table_grown (table : Text) (history : List FieldDefinition) : (grown table history).table = table := by
  induction history using List.reverseRecOn with
  | nil => rfl
  | append_singleton history definition ih => rw [grown_concat, table_tryInsert, ih]

/-- Insertions of readable names all succeed. -/
theorem foldlM_insert_eq_ok (tree : FieldTree) {definitions : List FieldDefinition}
    (h : ∀ d ∈ definitions, (FieldPath.steps? d.name).isSome) :
    definitions.foldlM insert tree = .ok (definitions.foldl FieldTree.tryInsert tree) := by
  induction definitions generalizing tree with
  | nil => rfl
  | cons d definitions ih =>
      have hd := h d List.mem_cons_self
      rcases tryInsert_cases tree d with hinsert | ⟨hnone, -⟩
      · rw [List.foldlM_cons, hinsert, List.foldl_cons]
        exact ih (tree.tryInsert d) fun e he => h e (List.mem_cons_of_mem _ he)
      · rw [hnone] at hd
        cases hd

/-! ### Sound trees by their roots -/

theorem Sound.lookup?_eq (h : tree.Sound) (p : List Step) : tree.lookup? p = tree.root.lookup? p := by
  rw [lookup?, locate?, root, FieldNode.lookup?, h.linked.find?_node]
  cases tree.cells.follow? 0 p with
  | none => rfl
  | some index => exact congrArg some (h.linked.definition?_node index).symm

/-- Sound trees are equal iff they belong to one table and stand for the same record. -/
theorem Sound.beq_iff {other : FieldTree} (h : tree.Sound) (hother : other.Sound) :
    (tree == other) = true ↔ tree.table = other.table ∧ tree.root = other.root := by
  obtain ⟨children, hcell⟩ := h.root_cell
  obtain ⟨others, hcell'⟩ := hother.root_cell
  show (decide (tree.table = other.table) && tree.cells.sameTo other.cells tree.cells.size 0 0) = true ↔ _
  rw [Bool.and_eq_true, decide_eq_true_iff,
    h.linked.sameTo_iff hother.linked (Nat.sub_le _ _) hcell hcell']
  exact and_congr_right fun _ => and_iff_right rfl

end FieldTree

end SurrealZod
