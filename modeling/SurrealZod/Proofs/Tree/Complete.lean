import SurrealZod.Proofs.Text.Ascending
import SurrealZod.Proofs.Tree.Lookup

/-! Complete nodes: objects have children and lists an element, so every way down ends at a scalar. An
insertion into a complete node, or into one about which nothing is known, leaves a complete node. A
complete node is determined by its lookups, and so is the record at the root, which may be blank. -/

namespace SurrealZod.FieldNode

/-- A node with nothing left open below it. -/
inductive Complete : FieldNode → Prop where
  | leaf (definition : FieldDefinition) : Complete (leaf definition)
  | branch (definition : Option FieldDefinition) {children : List (Text × FieldNode)} (hne : children ≠ [])
      (hascending : Text.Ascending children) (hchildren : ∀ child ∈ children, Complete child.2) :
      Complete (branch definition children)
  | list (definition : Option FieldDefinition) {element : FieldNode} (helement : Complete element) :
      Complete (list definition (some element))

/-- The root of a table: an object without a definition of its own, all of whose children are complete. -/
def Record (root : FieldNode) : Prop :=
  ∃ children, root = branch none children ∧ Text.Ascending children ∧ ∀ child ∈ children, child.2.Complete

variable {node next : FieldNode}

/-! ### Steps into complete nodes -/

theorem Complete.of_step? (h : node.Complete) {step : Step} (hstep : node.step? step = some next) :
    next.Complete := by
  cases h with
  | leaf => cases step <;> cases hstep
  | branch _ _ _ hchildren =>
      cases step with
      | field name => exact hchildren _ (Text.mem_of_get?_eq_some hstep)
      | element => cases hstep
  | list _ helement =>
      cases step with
      | field name => cases hstep
      | element =>
          cases hstep
          exact helement

theorem Record.of_step? (h : node.Record) {step : Step} (hstep : node.step? step = some next) :
    next.Complete := by
  obtain ⟨children, rfl, -, hchildren⟩ := h
  cases step with
  | field name => exact hchildren _ (Text.mem_of_get?_eq_some hstep)
  | element => cases hstep

theorem Complete.of_find? (h : node.Complete) {p : List Step} (hfind : node.find? p = some next) :
    next.Complete := by
  induction p generalizing node with
  | nil =>
      cases hfind
      exact h
  | cons step p ih =>
      obtain ⟨middle, hstep, hrest⟩ := Option.bind_eq_some_iff.mp hfind
      exact ih (h.of_step? hstep) hrest

theorem Record.of_find? (h : node.Record) {p : List Step} (hp : p ≠ []) (hfind : node.find? p = some next) :
    next.Complete := by
  cases p with
  | nil => exact absurd rfl hp
  | cons step p =>
      obtain ⟨middle, hstep, hrest⟩ := Option.bind_eq_some_iff.mp hfind
      exact (h.of_step? hstep).of_find? hrest

/-- Only a scalar leads nowhere. -/
theorem Complete.eq_leaf_of_step?_eq_none (h : node.Complete) (hstep : ∀ step, node.step? step = none) :
    ∃ definition, node = .leaf definition := by
  cases h with
  | leaf definition => exact ⟨definition, rfl⟩
  | @branch _ children hne hascending =>
      obtain ⟨⟨name, child⟩, rest, rfl⟩ := List.exists_cons_of_ne_nil hne
      have hfirst : Text.get? name ((name, child) :: rest) = some child :=
        hascending.get?_of_mem List.mem_cons_self
      cases hfirst.symm.trans (hstep (.field name))
  | list => cases hstep .element

/-- Every way down can be gone on to a scalar. -/
theorem Complete.exists_leaf (h : node.Complete) : ∃ p definition, node.find? p = some (.leaf definition) := by
  induction h with
  | leaf definition => exact ⟨[], definition, rfl⟩
  | @branch _ children hne hascending _ ih =>
      obtain ⟨⟨name, child⟩, rest, rfl⟩ := List.exists_cons_of_ne_nil hne
      obtain ⟨p, definition, hp⟩ := ih _ List.mem_cons_self
      refine ⟨.field name :: p, definition, ?_⟩
      rw [find?_cons, step?, children, hascending.get?_of_mem List.mem_cons_self]
      exact hp
  | list _ _ ih =>
      obtain ⟨p, definition, hp⟩ := ih
      exact ⟨.element :: p, definition, hp⟩

/-! ### Insertion -/

theorem complete_define (definition : FieldDefinition) (h : node = blank ∨ node.Complete) :
    (node.define definition).Complete := by
  rcases h with rfl | h
  · exact .leaf definition
  · cases h with
    | leaf => exact .leaf definition
    | @branch _ children hne hascending hchildren =>
        obtain ⟨child, rest, rfl⟩ := List.exists_cons_of_ne_nil hne
        exact .branch _ hne hascending hchildren
    | list _ helement => exact .list _ helement

theorem Complete.ascending_children (h : node.Complete) : Text.Ascending node.children := by
  cases h with
  | branch _ _ hascending => exact hascending
  | _ => exact List.Pairwise.nil

theorem Complete.of_mem_children (h : node.Complete) {child : Text × FieldNode} (hchild : child ∈ node.children) :
    child.2.Complete := by
  cases h with
  | branch _ _ _ hchildren => exact hchildren child hchild
  | _ => cases hchild

theorem forall_mem_put {children : List (Text × FieldNode)} (hchildren : ∀ child ∈ children, child.2.Complete)
    (name : Text) (hnext : next.Complete) : ∀ child ∈ Text.put name next children, child.2.Complete := by
  intro child hchild
  rcases Text.mem_put hchild with rfl | hchild
  · exact hnext
  · exact hchildren child hchild

theorem blank_or_complete_getD (found : Option FieldNode) (h : ∀ next, found = some next → next.Complete) :
    found.getD blank = blank ∨ (found.getD blank).Complete := by
  cases found with
  | none => exact Or.inl rfl
  | some next => exact Or.inr (h next rfl)

theorem complete_insert (definition : FieldDefinition) (p : List Step) (h : node = blank ∨ node.Complete) :
    (insert definition p node).Complete := by
  induction p generalizing node with
  | nil => exact complete_define definition h
  | cons step p ih =>
      have hnext := ih (blank_or_complete_getD (node.step? step) fun next hstep => by
        rcases h with rfl | h
        · rw [step?_blank] at hstep
          cases hstep
        · exact h.of_step? hstep)
      cases step with
      | element => exact .list _ hnext
      | field name =>
          have hascending : Text.Ascending node.children := by
            rcases h with rfl | h
            · exact List.Pairwise.nil
            · exact h.ascending_children
          have hchildren : ∀ child ∈ node.children, child.2.Complete := by
            intro child hchild
            rcases h with rfl | h
            · cases hchild
            · exact h.of_mem_children hchild
          exact .branch _ (Text.put_ne_nil _ _ _) (hascending.put _ _) (forall_mem_put hchildren name hnext)

theorem record_blank : blank.Record :=
  ⟨[], rfl, List.Pairwise.nil, fun _ hchild => absurd hchild List.not_mem_nil⟩

theorem Record.insert (h : node.Record) (definition : FieldDefinition) (name : Text) (p : List Step) :
    (insert definition (.field name :: p) node).Record := by
  have hnext := complete_insert definition p
    (blank_or_complete_getD (node.step? (.field name)) fun _ => h.of_step?)
  obtain ⟨children, rfl, hascending, hchildren⟩ := h
  exact ⟨_, rfl, hascending.put _ _, forall_mem_put hchildren name hnext⟩

/-! ### Lookups determine a node -/

theorem lookup?_cons (step : Step) (p : List Step) :
    node.lookup? (step :: p) = (node.step? step).bind (·.lookup? p) := by
  rw [lookup?, find?_cons]
  cases node.step? step <;> rfl

theorem step?_eq_of_lookup? {other : FieldNode} (h : ∀ p, node.lookup? p = other.lookup? p) {step : Step}
    (hext : ∀ a b, node.step? step = some a → other.step? step = some b →
      (∀ p, a.lookup? p = b.lookup? p) → a = b) : node.step? step = other.step? step := by
  have hrest (p : List Step) := h (step :: p)
  simp only [lookup?_cons] at hrest
  cases ha : node.step? step with
  | none =>
      cases hb : other.step? step with
      | none => rfl
      | some b =>
          have := hrest []
          rw [ha, hb] at this
          cases this
  | some a =>
      cases hb : other.step? step with
      | none =>
          have := hrest []
          rw [ha, hb] at this
          cases this
      | some b =>
          rw [ha, hb] at hrest
          rw [hext a b ha hb hrest]

theorem Complete.ext_step? {other : FieldNode} (h : node.Complete) (hother : other.Complete)
    (hdefinition : node.definition? = other.definition?) (hstep : ∀ step, node.step? step = other.step? step) :
    node = other := by
  cases h with
  | leaf definition =>
      have hnone (step : Step) : other.step? step = none := by
        rw [← hstep]
        cases step <;> rfl
      obtain ⟨d, rfl⟩ := hother.eq_leaf_of_step?_eq_none hnone
      cases hdefinition
      rfl
  | @branch own children hne hascending hchildren =>
      cases hother with
      | leaf d =>
          have hnone (step : Step) : (FieldNode.branch own children).step? step = none := by
            rw [hstep]
            cases step <;> rfl
          obtain ⟨d', hleaf⟩ := (Complete.branch own hne hascending hchildren).eq_leaf_of_step?_eq_none hnone
          cases hleaf
      | @branch d others _ hothers =>
          cases hdefinition
          rw [hascending.ext_get? hothers fun key => hstep (.field key)]
      | list => cases hstep .element
  | @list own element =>
      cases hother with
      | list d =>
          cases hdefinition
          cases hstep .element
          rfl
      | _ => cases hstep .element

/-- Complete nodes are the same if they look the same along all steps. -/
theorem Complete.ext_lookup? {other : FieldNode} (h : node.Complete) (hother : other.Complete)
    (heq : ∀ p, node.lookup? p = other.lookup? p) : node = other := by
  have hdefinition : node.definition? = other.definition? := Option.some.inj (heq [])
  induction h generalizing other with
  | leaf d =>
      refine (Complete.leaf d).ext_step? hother hdefinition fun step => step?_eq_of_lookup? heq ?_
      intro a b ha
      cases step <;> cases ha
  | @branch own children hne hascending hchildren ih =>
      refine (Complete.branch own hne hascending hchildren).ext_step? hother hdefinition fun step =>
        step?_eq_of_lookup? heq ?_
      intro a b ha hb hab
      cases step with
      | element => cases ha
      | field name =>
          exact ih _ (Text.mem_of_get?_eq_some ha) (hother.of_step? hb) hab (Option.some.inj (hab []))
  | @list own element helement ih =>
      refine (Complete.list own helement).ext_step? hother hdefinition fun step => step?_eq_of_lookup? heq ?_
      intro a b ha hb hab
      cases step with
      | field name => cases ha
      | element =>
          cases ha
          exact ih (hother.of_step? hb) hab (Option.some.inj (hab []))

/-- Records are the same if they look the same along all steps. -/
theorem Record.ext_lookup? {other : FieldNode} (h : node.Record) (hother : other.Record)
    (heq : ∀ p, node.lookup? p = other.lookup? p) : node = other := by
  have hstep (step : Step) : node.step? step = other.step? step :=
    step?_eq_of_lookup? heq fun a b ha hb hab => (h.of_step? ha).ext_lookup? (hother.of_step? hb) hab
  obtain ⟨children, rfl, hascending, -⟩ := h
  obtain ⟨others, rfl, hothers, -⟩ := hother
  rw [hascending.ext_get? hothers fun key => hstep (.field key)]

end SurrealZod.FieldNode
