import SurrealZod.Proofs.Text.Ascending
import SurrealZod.Proofs.Tree.Lookup
import SurrealZod.Tree.Cells

/-! One step of an insertion on the cells of a tree: the cell it leaves from takes the kind that the step
needs, and a step that leads nowhere gets a link to a blank cell at the end. All that later proofs use of
it is what becomes of the links and of the cells themselves. -/

namespace SurrealZod

namespace Cell

variable (cell : Cell)

@[simp] theorem link?_blank (segment : Text) (step : Step) : (blank segment).link? step = none := by
  cases step <;> rfl

theorem link?_fit {step other : Step} (h : other.isElement = step.isElement) :
    (cell.fit step).link? other = cell.link? other := by
  cases step with
  | field name =>
      cases other with
      | field other => rfl
      | element => cases h
  | element =>
      cases other with
      | field other => cases h
      | element => rfl

theorem link?_fit_of_ne {step other : Step} (h : other.isElement ≠ step.isElement) :
    (cell.fit step).link? other = none := by
  cases step with
  | field name =>
      cases other with
      | field other => exact absurd rfl h
      | element => rfl
  | element =>
      cases other with
      | field other => rfl
      | element => exact absurd rfl h

theorem link?_setLink_fit (step : Step) (target : Nat) :
    ((cell.fit step).setLink step target).link? step = some target := by
  cases step with
  | field name => exact Text.get?_put_self _ _ _
  | element => rfl

theorem link?_setLink_fit_of_ne {step other : Step} (h : other ≠ step) (target : Nat) :
    ((cell.fit step).setLink step target).link? other = (cell.fit step).link? other := by
  cases step with
  | field name =>
      cases other with
      | field other => exact Text.get?_put_of_ne (fun heq => h (congrArg Step.field heq)) _ _
      | element => rfl
  | element =>
      cases other with
      | field other => rfl
      | element => exact absurd rfl h

theorem link?_define (definition : FieldDefinition) (step : Step) :
    (cell.define definition).link? step = cell.link? step := by
  obtain ⟨segment, kind⟩ := cell
  cases kind with
  | leaf => cases step <;> rfl
  | branch own children => cases children <;> cases step <;> rfl
  | list => cases step <;> rfl

@[simp] theorem segment_fit (step : Step) : (cell.fit step).segment = cell.segment := by
  cases step <;> rfl

@[simp] theorem segment_setLink_fit (step : Step) (target : Nat) :
    ((cell.fit step).setLink step target).segment = cell.segment := by
  cases step <;> rfl

@[simp] theorem segment_define (definition : FieldDefinition) : (cell.define definition).segment = cell.segment := by
  obtain ⟨segment, kind⟩ := cell
  cases kind with
  | branch own children => cases children <;> rfl
  | _ => rfl

variable {cell}

theorem ascending_fit (h : Text.Ascending cell.children) (step : Step) :
    Text.Ascending (cell.fit step).children := by
  cases step with
  | field name => exact h
  | element => exact List.Pairwise.nil

theorem ascending_setLink_fit (h : Text.Ascending cell.children) (step : Step) (target : Nat) :
    Text.Ascending ((cell.fit step).setLink step target).children := by
  cases step with
  | field name => exact h.put name target
  | element => exact List.Pairwise.nil

theorem ascending_define (h : Text.Ascending cell.children) (definition : FieldDefinition) :
    Text.Ascending (cell.define definition).children := by
  obtain ⟨segment, kind⟩ := cell
  cases kind with
  | branch own children =>
      cases children with
      | nil => exact List.Pairwise.nil
      | cons child rest => exact h
  | _ => exact List.Pairwise.nil

end Cell

namespace Cells

variable {cells : Cells} {index : Nat} {step : Step}

/-! ### One step -/

theorem link?_eq_none (h : cells.size ≤ index) : cells.link? index step = none := by
  rw [link?, Array.getElem?_eq_none h, Option.bind_none]

theorem link?_of_getElem? {cell : Cell} (h : cells[index]? = some cell) (step : Step) :
    cells.link? index step = cell.link? step := by
  rw [link?, h, Option.bind_some]

theorem lt_size_of_link? {target : Nat} (h : cells.link? index step = some target) : index < cells.size := by
  by_contra hlt
  rw [link?_eq_none (Nat.le_of_not_lt hlt)] at h
  cases h

theorem getElem?_modify_self {cell : Cell} (h : cells[index]? = some cell) (f : Cell → Cell) :
    (cells.modify index f)[index]? = some (f cell) := by
  rw [Array.getElem?_modify, if_pos rfl, h, Option.map_some]

theorem getElem?_modify_of_ne {other : Nat} (h : other ≠ index) (f : Cell → Cell) :
    (cells.modify index f)[other]? = cells[other]? := by
  rw [Array.getElem?_modify, if_neg h.symm]

theorem modify_modify (index : Nat) (f g : Cell → Cell) :
    (cells.modify index f).modify index g = cells.modify index fun cell => g (f cell) := by
  apply Array.ext_getElem?
  intro other
  simp only [Array.getElem?_modify]
  split
  · rw [Option.map_map, Function.comp_def]
  · rfl

/-- What a step from a cell does: the cell takes the kind that the step needs, and where the step leads
nowhere it gets a link to a blank cell at the end. -/
theorem descend_cases (hindex : index < cells.size) (step : Step) :
    (∃ child, cells.link? index step = some child ∧
      cells.descend index step = (cells.modify index (·.fit step), child)) ∨
    (cells.link? index step = none ∧
      cells.descend index step =
        ((cells.modify index fun cell => (cell.fit step).setLink step cells.size).push
          (.blank step.segment), cells.size)) := by
  have hcell : cells[index]? = some cells[index] := Array.getElem?_eq_getElem hindex
  have hfitted : Cells.link? (cells.modify index (·.fit step)) index step = cells.link? index step := by
    rw [link?_of_getElem? (getElem?_modify_self hcell _), link?_of_getElem? hcell, Cell.link?_fit _ rfl]
  cases hlink : cells.link? index step with
  | some child =>
      refine Or.inl ⟨child, rfl, ?_⟩
      simp only [descend, hfitted, hlink]
  | none =>
      refine Or.inr ⟨rfl, ?_⟩
      simp only [descend, hfitted, hlink, modify_modify]

theorem link?_modify_of_ne {other : Nat} (h : other ≠ index) (f : Cell → Cell) (step : Step) :
    Cells.link? (cells.modify index f) other step = cells.link? other step := by
  rw [link?, getElem?_modify_of_ne h, link?]

theorem link?_push_blank (segment : Text) (other : Nat) (step : Step) :
    Cells.link? (cells.push (.blank segment)) other step = cells.link? other step := by
  rw [link?, Array.getElem?_push]
  split
  · rename_i heq
    rw [heq, Option.bind_some, Cell.link?_blank, link?_eq_none (Nat.le_refl _)]
  · rw [link?]

theorem link?_descend_of_ne (hindex : index < cells.size) (step : Step) {other : Nat} (h : other ≠ index)
    (s : Step) : (cells.descend index step).1.link? other s = cells.link? other s := by
  rcases descend_cases hindex step with ⟨child, -, heq⟩ | ⟨-, heq⟩
  · rw [heq, link?_modify_of_ne h]
  · rw [heq, link?_push_blank, link?_modify_of_ne h]

theorem link?_descend_self (hindex : index < cells.size) (step : Step) :
    (cells.descend index step).1.link? index step = some (cells.descend index step).2 := by
  have hcell : cells[index]? = some cells[index] := Array.getElem?_eq_getElem hindex
  rcases descend_cases hindex step with ⟨child, hlink, heq⟩ | ⟨-, heq⟩
  · rw [heq, link?_of_getElem? (getElem?_modify_self hcell _), Cell.link?_fit _ rfl, ← hlink,
      link?_of_getElem? hcell]
  · rw [heq, link?_push_blank, link?_of_getElem? (getElem?_modify_self hcell _), Cell.link?_setLink_fit]

theorem link?_descend_of_step_ne (hindex : index < cells.size) {step other : Step} (h : other ≠ step) :
    (cells.descend index step).1.link? index other = (cells[index].fit step).link? other := by
  have hcell : cells[index]? = some cells[index] := Array.getElem?_eq_getElem hindex
  rcases descend_cases hindex step with ⟨child, -, heq⟩ | ⟨-, heq⟩
  · rw [heq, link?_of_getElem? (getElem?_modify_self hcell _)]
  · rw [heq, link?_push_blank, link?_of_getElem? (getElem?_modify_self hcell _),
      Cell.link?_setLink_fit_of_ne _ h]

/-- A step makes one link at most, and only to a new cell. -/
theorem link?_of_link?_descend (hindex : index < cells.size) {step s : Step} {i j : Nat}
    (h : (cells.descend index step).1.link? i s = some j) :
    cells.link? i s = some j ∨ i = index ∧ s = step ∧ j = cells.size := by
  by_cases hi : i = index
  · subst hi
    by_cases hs : s = step
    · subst hs
      rw [link?_descend_self hindex] at h
      rcases descend_cases hindex s with ⟨child, hlink, heq⟩ | ⟨-, heq⟩
      · rw [heq] at h
        exact Or.inl (hlink.trans h)
      · rw [heq] at h
        exact Or.inr ⟨rfl, rfl, (Option.some.inj h).symm⟩
    · rw [link?_descend_of_step_ne hindex hs] at h
      by_cases hkind : s.isElement = step.isElement
      · rw [Cell.link?_fit _ hkind, ← link?_of_getElem? (Array.getElem?_eq_getElem hindex)] at h
        exact Or.inl h
      · rw [Cell.link?_fit_of_ne _ hkind] at h
        cases h
  · rw [link?_descend_of_ne hindex step hi] at h
    exact Or.inl h

theorem size_le_size_descend (hindex : index < cells.size) (step : Step) :
    cells.size ≤ (cells.descend index step).1.size := by
  rcases descend_cases hindex step with ⟨child, -, heq⟩ | ⟨-, heq⟩ <;> rw [heq] <;> simp

theorem getElem?_descend_of_ne (hindex : index < cells.size) (step : Step) {other : Nat} (h : other ≠ index)
    (hother : other < cells.size) : (cells.descend index step).1[other]? = cells[other]? := by
  rcases descend_cases hindex step with ⟨child, -, heq⟩ | ⟨-, heq⟩
  · rw [heq, getElem?_modify_of_ne h]
  · rw [heq, Array.getElem?_push, if_neg (by simpa using hother.ne), getElem?_modify_of_ne h]

/-- The cell that a step leaves from afterwards: in the right kind, perhaps with one more link. -/
theorem getElem?_descend_self (hindex : index < cells.size) (step : Step) :
    (cells.descend index step).1[index]? = some (cells[index].fit step) ∨
      (cells.descend index step).1[index]? = some ((cells[index].fit step).setLink step cells.size) := by
  have hcell : cells[index]? = some cells[index] := Array.getElem?_eq_getElem hindex
  rcases descend_cases hindex step with ⟨child, -, heq⟩ | ⟨-, heq⟩
  · rw [heq]
    exact Or.inl (getElem?_modify_self hcell _)
  · rw [heq, Array.getElem?_push, if_neg (by simpa using hindex.ne)]
    exact Or.inr (getElem?_modify_self hcell _)

end Cells

end SurrealZod
