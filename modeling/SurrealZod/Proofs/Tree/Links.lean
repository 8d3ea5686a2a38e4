import Mathlib.Data.List.Induction
import SurrealZod.Proofs.Tree.Descent

/-! The links between the cells of a tree. Every link leads to a later cell, and no two lead to the same
one; this holds of all cells, also of those that a change of kind has cut off. Hence steps from a cell
never meet a cell twice, and different steps from it lead to different cells. -/

namespace SurrealZod.Cells

/-- The order of the cells and of the children in them: links lead onwards, each cell is linked once and
bears the segment of the step that leads to it, and children are in the order of their names. -/
structure Linked (cells : Cells) : Prop where
  forward : ∀ {i s j}, cells.link? i s = some j → i < j ∧ j < cells.size
  unique : ∀ {i j s t k}, cells.link? i s = some k → cells.link? j t = some k → i = j ∧ s = t
  segment : ∀ {i s} {j : Nat} {cell : Cell}, cells.link? i s = some j → cells[j]? = some cell →
    cell.segment = s.segment
  ascending : ∀ {i : Nat} {cell : Cell}, cells[i]? = some cell → Text.Ascending cell.children

/-- Whether steps from one cell lead to another. -/
def Reaches (cells : Cells) (i j : Nat) : Prop := ∃ p, cells.follow? i p = some j

variable {cells : Cells} {index : Nat}

theorem Linked.exists_target (h : cells.Linked) {i j : Nat} {step : Step} (hlink : cells.link? i step = some j) :
    ∃ kind, cells[j]? = some { segment := step.segment, kind } := by
  have hcell := Array.getElem?_eq_getElem (h.forward hlink).2
  exact ⟨_, hcell.trans (by rw [← h.segment hlink hcell])⟩

/-! ### Insertion keeps the links in order -/

/-- A change of one cell that adds no link keeps the links in order. -/
theorem Linked.modify (h : cells.Linked) {f : Cell → Cell}
    (hlink : ∀ {cell s j}, (f cell).link? s = some j → cell.link? s = some j)
    (hsegment : ∀ cell, (f cell).segment = cell.segment)
    (hascending : ∀ {cell : Cell}, Text.Ascending cell.children → Text.Ascending (f cell).children) :
    Linked (cells.modify index f) := by
  have hold {i s j} (hij : Cells.link? (cells.modify index f) i s = some j) : cells.link? i s = some j := by
    by_cases hi : i = index
    · subst hi
      have hlt : i < cells.size := by simpa using lt_size_of_link? hij
      rw [link?_of_getElem? (getElem?_modify_self (Array.getElem?_eq_getElem hlt) f)] at hij
      rw [link?_of_getElem? (Array.getElem?_eq_getElem hlt)]
      exact hlink hij
    · rwa [link?_modify_of_ne hi] at hij
  have hcell {i : Nat} {cell : Cell} (hi : (cells.modify index f)[i]? = some cell) :
      ∃ old, cells[i]? = some old ∧ (cell = old ∨ cell = f old) := by
    rw [Array.getElem?_modify] at hi
    split at hi
    · obtain ⟨old, hold, rfl⟩ := Option.map_eq_some_iff.mp hi
      exact ⟨old, hold, Or.inr rfl⟩
    · exact ⟨cell, hi, Or.inl rfl⟩
  constructor
  · intro i s j hij
    simpa using h.forward (hold hij)
  · intro i j s t k hi hj
    exact h.unique (hold hi) (hold hj)
  · intro i s j cell hij hj
    obtain ⟨old, hget, rfl | rfl⟩ := hcell hj
    · exact h.segment (hold hij) hget
    · exact (hsegment old).trans (h.segment (hold hij) hget)
  · intro i cell hi
    obtain ⟨old, hget, rfl | rfl⟩ := hcell hi
    · exact h.ascending hget
    · exact hascending (h.ascending hget)

/-- What is known of a cell after a step: it is one of the cells before, of the same segment, or blank. -/
theorem cell_of_getElem?_descend (hindex : index < cells.size) {step : Step} {i : Nat} {cell : Cell}
    (hcell : (cells.descend index step).1[i]? = some cell) :
    (∃ old, cells[i]? = some old ∧ cell.segment = old.segment ∧
      (Text.Ascending old.children → Text.Ascending cell.children)) ∨
    i = cells.size ∧ cell = .blank step.segment := by
  by_cases hi : i = index
  · subst hi
    refine Or.inl ⟨cells[i], Array.getElem?_eq_getElem hindex, ?_⟩
    rcases getElem?_descend_self hindex step with heq | heq
    · cases heq.symm.trans hcell
      exact ⟨Cell.segment_fit _ _, fun h => Cell.ascending_fit h _⟩
    · cases heq.symm.trans hcell
      exact ⟨Cell.segment_setLink_fit _ _ _, fun h => Cell.ascending_setLink_fit h _ _⟩
  · by_cases hlt : i < cells.size
    · rw [getElem?_descend_of_ne hindex step hi hlt] at hcell
      exact Or.inl ⟨cell, hcell, rfl, id⟩
    · rcases descend_cases hindex step with ⟨child, -, heq⟩ | ⟨-, heq⟩
      · rw [heq, Array.getElem?_eq_none (by simpa using hlt)] at hcell
        cases hcell
      · rw [heq, Array.getElem?_push] at hcell
        split at hcell
        · rename_i hsize
          exact Or.inr ⟨by simpa using hsize, (Option.some.inj hcell).symm⟩
        · rw [Array.getElem?_eq_none (by simpa using hlt)] at hcell
          cases hcell

theorem Linked.target_lt_size (h : cells.Linked) (hindex : index < cells.size) (step : Step) :
    index < (cells.descend index step).2 ∧ (cells.descend index step).2 < (cells.descend index step).1.size := by
  rcases descend_cases hindex step with ⟨child, hlink, heq⟩ | ⟨-, heq⟩
  · rw [heq]
    simpa using h.forward hlink
  · rw [heq]
    simpa using hindex

theorem Linked.descend (h : cells.Linked) (hindex : index < cells.size) (step : Step) :
    (cells.descend index step).1.Linked := by
  constructor
  · intro i s j hij
    rcases link?_of_link?_descend hindex hij with hold | ⟨rfl, rfl, rfl⟩
    · obtain ⟨hlt, hsize⟩ := h.forward hold
      exact ⟨hlt, hsize.trans_le (size_le_size_descend hindex step)⟩
    · refine ⟨hindex, ?_⟩
      have htarget := (h.target_lt_size hindex s).2
      rw [link?_descend_self hindex] at hij
      rwa [Option.some.inj hij] at htarget
  · intro i j s t k hi hj
    rcases link?_of_link?_descend hindex hi with hiold | ⟨rfl, rfl, rfl⟩
    · rcases link?_of_link?_descend hindex hj with hjold | ⟨rfl, rfl, rfl⟩
      · exact h.unique hiold hjold
      · exact absurd (h.forward hiold).2 (Nat.lt_irrefl _)
    · rcases link?_of_link?_descend hindex hj with hjold | ⟨rfl, rfl, -⟩
      · exact absurd (h.forward hjold).2 (Nat.lt_irrefl _)
      · exact ⟨rfl, rfl⟩
  · intro i s j cell hij hcell
    rcases cell_of_getElem?_descend hindex hcell with ⟨old, hold, hsegment, -⟩ | ⟨rfl, rfl⟩
    · rcases link?_of_link?_descend hindex hij with hijold | ⟨-, -, rfl⟩
      · exact hsegment.trans (h.segment hijold hold)
      · rw [Array.getElem?_eq_none (Nat.le_refl _)] at hold
        cases hold
    · rcases link?_of_link?_descend hindex hij with hijold | ⟨-, rfl, -⟩
      · exact absurd (h.forward hijold).2 (Nat.lt_irrefl _)
      · rfl
  · intro i cell hcell
    rcases cell_of_getElem?_descend hindex hcell with ⟨old, hold, -, hascending⟩ | ⟨-, rfl⟩
    · exact hascending (h.ascending hold)
    · exact List.Pairwise.nil

theorem Linked.insert (h : cells.Linked) (hindex : index < cells.size) (definition : FieldDefinition)
    (p : List Step) : (cells.insert definition index p).Linked := by
  induction p generalizing cells index with
  | nil =>
      apply h.modify
      · intro cell s j hlink
        rwa [Cell.link?_define] at hlink
      · intro cell
        exact Cell.segment_define cell definition
      · intro cell hascending
        exact Cell.ascending_define hascending definition
  | cons step p ih => exact ih (h.descend hindex step) (h.target_lt_size hindex step).2

theorem linked_singleton_blank (segment : Text) : Linked #[.blank segment] := by
  have hlink (i : Nat) (s : Step) : Cells.link? #[.blank segment] i s = none := by
    exact (@link?_push_blank #[] segment i s).trans (link?_eq_none (Nat.zero_le i))
  constructor
  · intro i s j hij
    simp [hlink] at hij
  · intro i j s t k hi
    simp [hlink] at hi
  · intro i s j cell hij
    simp [hlink] at hij
  · intro i cell hcell
    rw [Array.getElem?_singleton] at hcell
    split at hcell
    · cases hcell
      exact List.Pairwise.nil
    · cases hcell

/-! ### Steps through linked cells -/

theorem follow?_cons (step : Step) (p : List Step) :
    cells.follow? index (step :: p) = (cells.link? index step).bind (cells.follow? · p) := rfl

theorem follow?_append (p q : List Step) :
    cells.follow? index (p ++ q) = (cells.follow? index p).bind (cells.follow? · q) := by
  induction p generalizing index with
  | nil => rfl
  | cons step p ih =>
      rw [List.cons_append, follow?_cons, follow?_cons]
      cases cells.link? index step with
      | none => rfl
      | some next => exact ih

theorem follow?_concat (p : List Step) (step : Step) :
    cells.follow? index (p ++ [step]) = (cells.follow? index p).bind (cells.link? · step) := by
  rw [follow?_append]
  congr
  funext next
  exact Option.bind_fun_some _

theorem Reaches.refl (cells : Cells) (index : Nat) : cells.Reaches index index := ⟨[], rfl⟩

theorem Reaches.of_link? {step : Step} {next target : Nat} (hlink : cells.link? index step = some next)
    (h : cells.Reaches next target) : cells.Reaches index target := by
  obtain ⟨p, hp⟩ := h
  refine ⟨step :: p, ?_⟩
  rw [follow?_cons, hlink]
  exact hp

/-- Every step leads at least one cell onwards. -/
theorem Linked.add_length_le_of_follow? (h : cells.Linked) {p : List Step} {target : Nat}
    (hp : cells.follow? index p = some target) : index + p.length ≤ target := by
  induction p generalizing index with
  | nil => exact (Option.some.inj hp).le
  | cons step p ih =>
      obtain ⟨next, hlink, hrest⟩ := Option.bind_eq_some_iff.mp hp
      have hforward := (h.forward hlink).1
      have hbelow := ih hrest
      rw [List.length_cons]
      omega

theorem Linked.le_of_follow? (h : cells.Linked) {p : List Step} {target : Nat}
    (hp : cells.follow? index p = some target) : index ≤ target :=
  (Nat.le_add_right index p.length).trans (h.add_length_le_of_follow? hp)

theorem Linked.lt_of_follow?_concat (h : cells.Linked) {p : List Step} {step : Step} {target : Nat}
    (hp : cells.follow? index (p ++ [step]) = some target) : index < target := by
  rw [follow?_concat] at hp
  obtain ⟨last, hlast, hlink⟩ := Option.bind_eq_some_iff.mp hp
  exact (h.le_of_follow? hlast).trans_lt (h.forward hlink).1

theorem Linked.follow?_lt_size (h : cells.Linked) (hindex : index < cells.size) {p : List Step} {target : Nat}
    (hp : cells.follow? index p = some target) : target < cells.size := by
  induction p generalizing index with
  | nil => exact Option.some.inj hp ▸ hindex
  | cons step p ih =>
      obtain ⟨next, hlink, hrest⟩ := Option.bind_eq_some_iff.mp hp
      exact ih (h.forward hlink).2 hrest

/-- Different steps from a cell lead to different cells. In particular no way down meets a cell twice. -/
theorem Linked.follow?_injective (h : cells.Linked) {p q : List Step} {target : Nat}
    (hp : cells.follow? index p = some target) (hq : cells.follow? index q = some target) : p = q := by
  -- Backwards from the common end: the last link is the only one to its cell, so the ways before it agree.
  induction p using List.reverseRecOn generalizing q target with
  | nil =>
      cases hp
      cases q using List.reverseRecOn with
      | nil => rfl
      | append_singleton q t => exact absurd (h.lt_of_follow?_concat hq) (Nat.lt_irrefl _)
  | append_singleton p s ih =>
      cases q using List.reverseRecOn with
      | nil =>
          cases hq
          exact absurd (h.lt_of_follow?_concat hp) (Nat.lt_irrefl _)
      | append_singleton q t =>
          rw [follow?_concat] at hp hq
          obtain ⟨i, hi, his⟩ := Option.bind_eq_some_iff.mp hp
          obtain ⟨j, hj, hjt⟩ := Option.bind_eq_some_iff.mp hq
          obtain ⟨rfl, rfl⟩ := h.unique his hjt
          rw [ih hi hj]

end SurrealZod.Cells
