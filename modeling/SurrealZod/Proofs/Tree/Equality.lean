import SurrealZod.Proofs.Tree.Meaning
import SurrealZod.Tree.FieldTree

/-! Equality of trees. The comparison walks two arrays at once, wherever the nodes stand in them, and
finds out whether they stand for the same node. -/

namespace SurrealZod.Cells

/-- A comparison of two lists entry by entry is an equality, if it is one for each pair of entries. -/
theorem all_zip_iff {α β γ : Type} {as : List α} {bs : List β} {same : α × β → Bool} {f : α → γ} {g : β → γ}
    (h : ∀ a ∈ as, ∀ b ∈ bs, same (a, b) = true ↔ f a = g b) :
    (as.length = bs.length ∧ (as.zip bs).all same = true) ↔ as.map f = bs.map g := by
  induction as generalizing bs with
  | nil => cases bs <;> simp
  | cons a as ih =>
      cases bs with
      | nil => simp
      | cons b bs =>
          have hrest := ih fun x hx y hy => h x (List.mem_cons_of_mem _ hx) y (List.mem_cons_of_mem _ hy)
          rw [List.zip_cons_cons, List.all_cons, Bool.and_eq_true, h a List.mem_cons_self b List.mem_cons_self,
            List.map_cons, List.map_cons, List.cons.injEq, ← hrest, List.length_cons, List.length_cons,
            Nat.add_right_cancel_iff, and_left_comm]

/-- Children compare as the same if their names are and what stands below them is. -/
theorem all_zip_children_iff {as bs : List (Text × Nat)} {same : Nat → Nat → Bool} {f g : Nat → FieldNode}
    (h : ∀ {name m n}, (name, m) ∈ as → (name, n) ∈ bs → (same m n = true ↔ f m = g n)) :
    (as.length = bs.length ∧ (as.zip bs).all (fun (m, n) => m.1 = n.1 && same m.2 n.2) = true) ↔
      (as.map fun (name, child) => (name, f child)) = bs.map fun (name, child) => (name, g child) := by
  apply all_zip_iff
  rintro ⟨name, m⟩ hm ⟨name', n⟩ hn
  simp only [Bool.and_eq_true, decide_eq_true_eq, Prod.mk.injEq]
  apply and_congr_right
  intro heq
  subst heq
  exact h hm hn

variable {cells others : Cells}

/-- Two cells compare as the same iff they have the same segment and stand for the same node. -/
theorem Linked.sameTo_iff (h : cells.Linked) (hothers : others.Linked) {depth index other : Nat}
    (hdepth : cells.size - index ≤ depth) {a b : Cell} (ha : cells[index]? = some a)
    (hb : others[other]? = some b) :
    cells.sameTo others depth index other = true ↔
      a.segment = b.segment ∧ cells.node index = others.node other := by
  induction depth generalizing index other a b with
  | zero =>
      obtain ⟨hlt, -⟩ := Array.getElem?_eq_some_iff.mp ha
      omega
  | succ depth ih =>
      -- Below, the segments are those of the steps, so they are the same whenever the steps are.
      have hbelow {step : Step} {m n : Nat} (hm : a.link? step = some m) (hn : b.link? step = some n) :
          cells.sameTo others depth m n = true ↔ cells.node m = others.node n := by
        have hlink := (link?_of_getElem? ha step).trans hm
        have hlink' := (link?_of_getElem? hb step).trans hn
        have hforward := h.forward hlink
        have hcell := Array.getElem?_eq_getElem hforward.2
        have hcell' := Array.getElem?_eq_getElem (hothers.forward hlink').2
        rw [ih (by omega) hcell hcell', h.segment hlink hcell, hothers.segment hlink' hcell']
        exact and_iff_right rfl
      simp only [sameTo, ha, hb, Bool.and_eq_true, decide_eq_true_eq]
      refine and_congr_right fun _ => ?_
      rw [h.node_eq ha, hothers.node_eq hb]
      obtain ⟨segment, kind⟩ := a
      obtain ⟨segment', kind'⟩ := b
      cases kind with
      | leaf c => cases kind' <;> simp [Cell.toNode]
      | branch c as =>
          cases kind' with
          | leaf d => simp [Cell.toNode]
          | list d n => simp [Cell.toNode]
          | branch d bs =>
              have hzip := @all_zip_children_iff as bs (sameTo cells others depth) cells.node others.node
                fun {name m n} hm hn => @hbelow (.field name) m n
                  ((h.ascending ha).get?_of_mem hm) ((hothers.ascending hb).get?_of_mem hn)
              simp only [Cell.toNode, FieldNode.branch.injEq, ← hzip, Bool.and_eq_true, decide_eq_true_eq, and_assoc]
      | list c m =>
          cases kind' with
          | leaf d => cases m <;> simp [Cell.toNode]
          | branch d bs => cases m <;> simp [Cell.toNode]
          | list d n =>
              cases m with
              | none => cases n <;> simp [Cell.toNode]
              | some m =>
                  cases n with
                  | none => simp [Cell.toNode]
                  | some n =>
                      have helement := @hbelow .element m n rfl rfl
                      simp [Cell.toNode, helement]

end SurrealZod.Cells
