import SurrealZod.Proofs.Tree.Links

/-! What the cells of a tree stand for. The node at an index is read off the cells in reach of it, so steps
through cells are steps through nodes. An insertion changes only cells in reach of the index where it
begins, and none of them is in reach of a sibling on the way, so on the node it is the insertion of nodes. -/

namespace SurrealZod

namespace Cell

variable {cell : Cell} {f g : Nat → FieldNode}

@[simp] theorem toNode_blank (segment : Text) : (blank segment).toNode f = .blank := rfl

@[simp] theorem definition?_toNode : (cell.toNode f).definition? = cell.definition? := by
  obtain ⟨segment, kind⟩ := cell
  cases kind <;> rfl

theorem children_toNode :
    (cell.toNode f).children = cell.children.map fun child => (child.1, f child.2) := by
  obtain ⟨segment, kind⟩ := cell
  cases kind <;> rfl

theorem step?_toNode (step : Step) : (cell.toNode f).step? step = (cell.link? step).map f := by
  cases step with
  | field name => rw [FieldNode.step?, children_toNode, Text.get?_map, link?]
  | element =>
      obtain ⟨segment, kind⟩ := cell
      cases kind <;> rfl

theorem toNode_congr (hascending : Text.Ascending cell.children)
    (h : ∀ step target, cell.link? step = some target → f target = g target) : cell.toNode f = cell.toNode g := by
  obtain ⟨segment, kind⟩ := cell
  cases kind with
  | leaf => rfl
  | branch own children =>
      refine congrArg (FieldNode.branch own) (List.map_congr_left fun child hchild => ?_)
      have hlink : Text.get? child.1 children = some child.2 := hascending.get?_of_mem hchild
      exact congrArg (Prod.mk child.1) (h (.field child.1) child.2 hlink)
  | list own element =>
      cases element with
      | none => rfl
      | some target => exact congrArg (fun node => FieldNode.list own (some node)) (h .element target rfl)

/-- A cell that a step into an object leaves from stands for an object. -/
theorem toNode_of_fit_field {after : Cell} {name : Text} {target : Nat}
    (h : after = cell.fit (.field name) ∨ after = (cell.fit (.field name)).setLink (.field name) target) :
    after.toNode f = .branch cell.definition? (after.children.map fun child => (child.1, f child.2)) := by
  rcases h with rfl | rfl <;> rfl

/-- A cell that a step into a list leaves from stands for a list. -/
theorem toNode_of_fit_element {after : Cell} {target : Nat}
    (h : after = cell.fit .element ∨ after = (cell.fit .element).setLink .element target) :
    after.toNode f = .list cell.definition? (after.element?.map f) := by
  rcases h with rfl | rfl <;> rfl

theorem toNode_define (definition : FieldDefinition) :
    (cell.define definition).toNode f = (cell.toNode f).define definition := by
  obtain ⟨segment, kind⟩ := cell
  cases kind with
  | branch own children => cases children <;> rfl
  | _ => rfl

end Cell

namespace Cells

variable {cells others : Cells} {index : Nat}

/-! ### Reading nodes off cells -/

theorem Linked.nodeTo_eq (h : cells.Linked) {m n : Nat} (hm : cells.size - index ≤ m)
    (hn : cells.size - index ≤ n) : cells.nodeTo m index = cells.nodeTo n index := by
  induction m generalizing n index with
  | zero =>
      have hnone : cells[index]? = none := Array.getElem?_eq_none (by omega)
      cases n with
      | zero => rfl
      | succ n => simp only [nodeTo, hnone]
  | succ m ih =>
      cases hcell : cells[index]? with
      | none =>
          cases n with
          | zero => simp only [nodeTo, hcell]
          | succ n => simp only [nodeTo, hcell]
      | some cell =>
          obtain ⟨hlt, -⟩ := Array.getElem?_eq_some_iff.mp hcell
          obtain ⟨n, rfl⟩ : ∃ k, n = k + 1 := ⟨n - 1, by omega⟩
          simp only [nodeTo, hcell]
          apply Cell.toNode_congr (h.ascending hcell)
          intro step target hlink
          have := h.forward ((link?_of_getElem? hcell step).trans hlink)
          exact ih (by omega) (by omega)

theorem node_eq_blank (h : cells[index]? = none) : cells.node index = .blank := by
  rw [node]
  cases cells.size <;> simp only [nodeTo, h]

/-- The node at a cell, from the nodes that its links lead to. -/
theorem Linked.node_eq (h : cells.Linked) {cell : Cell} (hcell : cells[index]? = some cell) :
    cells.node index = cell.toNode cells.node := by
  obtain ⟨hlt, -⟩ := Array.getElem?_eq_some_iff.mp hcell
  obtain ⟨depth, hdepth⟩ : ∃ k, cells.size = k + 1 := ⟨cells.size - 1, by omega⟩
  rw [node, hdepth]
  simp only [nodeTo, hcell]
  apply Cell.toNode_congr (h.ascending hcell)
  intro step target hlink
  have := h.forward ((link?_of_getElem? hcell step).trans hlink)
  exact h.nodeTo_eq (by omega) (by omega)

theorem Linked.step?_node (h : cells.Linked) (index : Nat) (step : Step) :
    (cells.node index).step? step = (cells.link? index step).map cells.node := by
  cases hcell : cells[index]? with
  | none => rw [node_eq_blank hcell, FieldNode.step?_blank, link?, hcell, Option.bind_none, Option.map_none]
  | some cell => rw [h.node_eq hcell, Cell.step?_toNode, link?_of_getElem? hcell]

theorem Linked.find?_node (h : cells.Linked) (index : Nat) (p : List Step) :
    (cells.node index).find? p = (cells.follow? index p).map cells.node := by
  induction p generalizing index with
  | nil => rfl
  | cons step p ih =>
      rw [FieldNode.find?_cons, h.step?_node, follow?_cons]
      cases cells.link? index step with
      | none => rfl
      | some next => exact ih next

theorem Linked.definition?_node (h : cells.Linked) (index : Nat) :
    (cells.node index).definition? = cells[index]?.bind (·.definition?) := by
  cases hcell : cells[index]? with
  | none => rw [node_eq_blank hcell, Option.bind_none, FieldNode.blank, FieldNode.definition?]
  | some cell => rw [h.node_eq hcell, Cell.definition?_toNode, Option.bind_some]

/-- Only the cells in reach of an index matter to its node. -/
theorem Linked.node_congr (h : cells.Linked) (hothers : others.Linked)
    (hsame : ∀ target, cells.Reaches index target → others[target]? = cells[target]?) :
    others.node index = cells.node index := by
  -- Links lead onwards, so the distance to the end of the cells goes down along them.
  generalize hdistance : cells.size - index = distance
  induction distance using Nat.strong_induction_on generalizing index with
  | _ distance ih =>
      have hindex := hsame index (Reaches.refl cells index)
      cases hcell : cells[index]? with
      | none => rw [node_eq_blank hcell, node_eq_blank (hindex.trans hcell)]
      | some cell =>
          rw [h.node_eq hcell, hothers.node_eq (hindex.trans hcell)]
          apply Cell.toNode_congr (h.ascending hcell)
          intro step target hlink
          have hlink := (link?_of_getElem? hcell step).trans hlink
          have hforward := h.forward hlink
          exact ih _ (by omega) (fun t ht => hsame t (Reaches.of_link? hlink ht)) rfl

/-! ### What an insertion leaves alone -/

theorem Linked.follow?_descend (h : cells.Linked) (hindex : index < cells.size) (step : Step) {start : Nat}
    (hstart : index < start) (p : List Step) :
    (cells.descend index step).1.follow? start p = cells.follow? start p := by
  induction p generalizing start with
  | nil => rfl
  | cons s p ih =>
      rw [follow?_cons, follow?_cons, link?_descend_of_ne hindex step hstart.ne']
      cases hlink : cells.link? start s with
      | none => rfl
      | some next => exact ih (hstart.trans (h.forward hlink).1)

/-- What the target of a step reaches after the step was in reach before, by that step, unless it is new. -/
theorem Linked.reaches_of_descend (h : cells.Linked) (hindex : index < cells.size) {step : Step} {target : Nat}
    (htarget : target < cells.size)
    (hreach : (cells.descend index step).1.Reaches (cells.descend index step).2 target) :
    cells.link? index step = some (cells.descend index step).2 ∧
      cells.Reaches (cells.descend index step).2 target := by
  obtain ⟨p, hp⟩ := hreach
  rw [h.follow?_descend hindex step (h.target_lt_size hindex step).1] at hp
  refine ⟨?_, p, hp⟩
  rcases descend_cases hindex step with ⟨child, hlink, heq⟩ | ⟨-, heq⟩
  · rw [heq]
    exact hlink
  · rw [heq] at hp
    cases p with
    | nil => exact absurd (Option.some.inj hp) htarget.ne'
    | cons s p =>
        rw [follow?_cons, link?_eq_none (Nat.le_refl _)] at hp
        cases hp

/-- An insertion changes no cell out of reach of the index where it begins. -/
theorem Linked.getElem?_insert (h : cells.Linked) (hindex : index < cells.size) (definition : FieldDefinition)
    (p : List Step) {target : Nat} (htarget : target < cells.size) (hreach : ¬cells.Reaches index target) :
    (cells.insert definition index p)[target]? = cells[target]? := by
  have hne {cells : Cells} {index target : Nat} (hreach : ¬cells.Reaches index target) : target ≠ index := by
    rintro rfl
    exact hreach (Reaches.refl cells target)
  induction p generalizing cells index with
  | nil => exact getElem?_modify_of_ne (hne hreach) _
  | cons step p ih =>
      rw [Cells.insert, ih (h.descend hindex step) (h.target_lt_size hindex step).2
        (htarget.trans_le (size_le_size_descend hindex step)),
        getElem?_descend_of_ne hindex step (hne hreach) htarget]
      intro hbelow
      obtain ⟨hlink, hrest⟩ := h.reaches_of_descend hindex htarget hbelow
      exact hreach (Reaches.of_link? hlink hrest)

/-- The nodes that other steps from the cell lead to stay as they are. -/
theorem Linked.node_insert_sibling (h : cells.Linked) (hindex : index < cells.size)
    (definition : FieldDefinition) {step other : Step} (hne : other ≠ step) (p : List Step) {sibling : Nat}
    (hsibling : cells.link? index other = some sibling) :
    (cells.insert definition index (step :: p)).node sibling = cells.node sibling := by
  apply h.node_congr (h.insert hindex definition (step :: p))
  rintro target ⟨q, hq⟩
  have hafter : index < target := (h.forward hsibling).1.trans_le (h.le_of_follow? hq)
  have htarget := h.follow?_lt_size (h.forward hsibling).2 hq
  rw [Cells.insert, (h.descend hindex step).getElem?_insert (h.target_lt_size hindex step).2 definition p
    (htarget.trans_le (size_le_size_descend hindex step)),
    getElem?_descend_of_ne hindex step hafter.ne' htarget]
  intro hbelow
  obtain ⟨hlink, r, hr⟩ := h.reaches_of_descend hindex htarget hbelow
  -- Both steps would lead to the same cell in the end.
  have hother : cells.follow? index (other :: q) = some target := by rw [follow?_cons, hsibling]; exact hq
  have hstep : cells.follow? index (step :: r) = some target := by rw [follow?_cons, hlink]; exact hr
  exact hne (List.cons.inj (h.follow?_injective hother hstep)).1

/-! ### The meaning of an insertion -/

/-- Where a step leads stands the node that was there, or a blank one. -/
theorem Linked.node_descend (h : cells.Linked) (hindex : index < cells.size) (step : Step) :
    (cells.descend index step).1.node (cells.descend index step).2 =
      ((cells.node index).step? step).getD .blank := by
  rw [h.step?_node]
  rcases descend_cases hindex step with ⟨child, hlink, heq⟩ | ⟨hlink, heq⟩
  · rw [hlink, Option.map_some, Option.getD_some]
    have hlinked := h.descend hindex step
    rw [heq] at hlinked ⊢
    refine h.node_congr hlinked fun target hreach => getElem?_modify_of_ne ?_ _
    obtain ⟨p, hp⟩ := hreach
    exact ((h.forward hlink).1.trans_le (h.le_of_follow? hp)).ne'
  · rw [hlink, Option.map_none, Option.getD_none]
    have hlinked := h.descend hindex step
    rw [heq] at hlinked ⊢
    have hnew : ((cells.modify index fun cell => (cell.fit step).setLink step cells.size).push
        (Cell.blank step.segment))[cells.size]? = some (Cell.blank step.segment) := by
      rw [Array.getElem?_push, if_pos Array.size_modify.symm]
    rw [hlinked.node_eq hnew, Cell.toNode_blank]

/-- The rest of an insertion leaves the cell alone where it begins. -/
theorem Linked.getElem?_insert_self (h : cells.Linked) (hindex : index < cells.size)
    (definition : FieldDefinition) (step : Step) (p : List Step) :
    (cells.insert definition index (step :: p))[index]? = (cells.descend index step).1[index]? := by
  refine (h.descend hindex step).getElem?_insert (h.target_lt_size hindex step).2 definition p
    (hindex.trans_le (size_le_size_descend hindex step)) ?_
  rintro ⟨q, hq⟩
  have htarget := (h.target_lt_size hindex step).1
  exact absurd ((h.descend hindex step).le_of_follow? hq) (Nat.not_le_of_lt htarget)

/-- Where the steps from the cell lead after an insertion, once that is known of the first step on its path. -/
theorem Linked.map_link?_insert (h : cells.Linked) (hindex : index < cells.size) (definition : FieldDefinition)
    (step : Step) (p : List Step)
    (hbelow : (cells.insert definition index (step :: p)).node (cells.descend index step).2 =
      FieldNode.insert definition p (((cells.node index).step? step).getD .blank)) (other : Step) :
    ((cells.insert definition index (step :: p)).link? index other).map
        (cells.insert definition index (step :: p)).node =
      (FieldNode.insert definition (step :: p) (cells.node index)).step? other := by
  have hcell : cells[index]? = some cells[index] := Array.getElem?_eq_getElem hindex
  rw [link?, h.getElem?_insert_self hindex, ← link?]
  by_cases heq : other = step
  · subst heq
    rw [link?_descend_self hindex, FieldNode.step?_insert_self, Option.map_some, hbelow]
  · rw [link?_descend_of_step_ne hindex heq]
    by_cases hkind : other.isElement = step.isElement
    · rw [Cell.link?_fit _ hkind, FieldNode.step?_insert_of_ne _ _ heq hkind, h.step?_node,
        link?_of_getElem? hcell]
      cases hlink : cells[index].link? other with
      | none => rfl
      | some sibling =>
          exact congrArg some (h.node_insert_sibling hindex definition heq p
            ((link?_of_getElem? hcell other).trans hlink))
    · rw [Cell.link?_fit_of_ne _ hkind, FieldNode.step?_insert_of_isElement_ne _ _ hkind, Option.map_none]

theorem Linked.node_insert_nil (h : cells.Linked) (hindex : index < cells.size) (definition : FieldDefinition) :
    (cells.insert definition index []).node index = (cells.node index).define definition := by
  have hcell : cells[index]? = some cells[index] := Array.getElem?_eq_getElem hindex
  have hlinked := h.insert hindex definition []
  rw [hlinked.node_eq (getElem?_modify_self hcell _), Cell.toNode_define, h.node_eq hcell]
  refine congrArg (FieldNode.define definition) (Cell.toNode_congr (h.ascending hcell) fun step target hlink => ?_)
  have hforward := h.forward ((link?_of_getElem? hcell step).trans hlink)
  refine h.node_congr hlinked fun t ht => getElem?_modify_of_ne ?_ _
  obtain ⟨q, hq⟩ := ht
  exact (hforward.1.trans_le (h.le_of_follow? hq)).ne'

/-- An insertion into cells is the insertion into the node that they stand for. -/
theorem Linked.node_insert (h : cells.Linked) (hindex : index < cells.size) (definition : FieldDefinition)
    (p : List Step) :
    (cells.insert definition index p).node index = FieldNode.insert definition p (cells.node index) := by
  induction p generalizing cells index with
  | nil => exact h.node_insert_nil hindex definition
  | cons step p ih =>
      have hcell : cells[index]? = some cells[index] := Array.getElem?_eq_getElem hindex
      have hlinked := h.insert hindex definition (step :: p)
      have hbelow := ih (h.descend hindex step) (h.target_lt_size hindex step).2
      rw [h.node_descend hindex] at hbelow
      have hstep := h.map_link?_insert hindex definition step p hbelow
      obtain ⟨cell, hafter, hfit⟩ : ∃ cell, (cells.insert definition index (step :: p))[index]? = some cell ∧
          (cell = cells[index].fit step ∨ cell = (cells[index].fit step).setLink step cells.size) := by
        rw [h.getElem?_insert_self hindex]
        rcases getElem?_descend_self hindex step with heq | heq
        · exact ⟨_, heq, Or.inl rfl⟩
        · exact ⟨_, heq, Or.inr rfl⟩
      have hdefinition : cells[index].definition? = (cells.node index).definition? := by
        rw [h.definition?_node, hcell, Option.bind_some]
      simp only [link?_of_getElem? hafter] at hstep
      rw [hlinked.node_eq hafter]
      -- The kind of the cell is that of the step, and then definition and links make up the node.
      cases step with
      | field name =>
          rw [Cell.toNode_of_fit_field hfit, FieldNode.insert, hdefinition]
          refine congrArg (FieldNode.branch _)
            (Text.Ascending.ext_get? (Text.ascending_map_iff.mpr (hlinked.ascending hafter)) ?_ fun key => ?_)
          · have hold : Text.Ascending (cells.node index).children := by
              rw [h.node_eq hcell, Cell.children_toNode]
              exact Text.ascending_map_iff.mpr (h.ascending hcell)
            exact hold.put _ _
          · rw [Text.get?_map]
            exact hstep (.field key)
      | element =>
          rw [Cell.toNode_of_fit_element hfit, FieldNode.insert, hdefinition]
          exact congrArg (FieldNode.list _) (hstep .element)

end Cells

end SurrealZod
