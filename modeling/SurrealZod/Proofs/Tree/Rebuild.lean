import SurrealZod.Proofs.Tree.Declared

/-! A tree says nothing beyond its definitions. Whatever its history was, with repetitions and changes of
kind that cut nodes off, the definitions in reach of the root make up an equal tree, in any order. -/

namespace SurrealZod

open FieldPath

/-- The indices that the cell refers to. -/
def Cell.links (cell : Cell) : List Nat := cell.children.map (·.2) ++ cell.element?.toList

theorem Cell.mem_links_iff {cell : Cell} (h : Text.Ascending cell.children) {target : Nat} :
    target ∈ cell.links ↔ ∃ step, cell.link? step = some target := by
  rw [links, List.mem_append, List.mem_map, Option.mem_toList]
  constructor
  · rintro (⟨⟨name, child⟩, hchild, rfl⟩ | helement)
    · exact ⟨.field name, h.get?_of_mem hchild⟩
    · exact ⟨.element, helement⟩
  · rintro ⟨step, hstep⟩
    cases step with
    | field name => exact Or.inl ⟨_, Text.mem_of_get?_eq_some hstep, rfl⟩
    | element => exact Or.inr hstep

namespace Cells

/-- The indices in reach of an index, each before those below it, down to a depth. -/
def reachTo (cells : Cells) : Nat → Nat → List Nat
  | 0, _ => []
  | depth + 1, index => index :: ((cells[index]?.map Cell.links).getD []).flatMap (cells.reachTo depth)

variable {cells : Cells}

theorem Linked.mem_links_getD_iff (h : cells.Linked) {index target : Nat} :
    target ∈ (cells[index]?.map Cell.links).getD [] ↔ ∃ step, cells.link? index step = some target := by
  cases hcell : cells[index]? with
  | none =>
      simp only [link?, hcell, Option.map_none, Option.getD_none, Option.bind_none, List.not_mem_nil, reduceCtorEq,
        exists_false]
  | some cell =>
      simp only [link?_of_getElem? hcell]
      exact Cell.mem_links_iff (h.ascending hcell)

theorem Linked.mem_reachTo_iff (h : cells.Linked) {depth index target : Nat} :
    target ∈ cells.reachTo depth index ↔ ∃ p, p.length < depth ∧ cells.follow? index p = some target := by
  induction depth generalizing index with
  | zero =>
      refine ⟨fun hmem => absurd hmem List.not_mem_nil, ?_⟩
      rintro ⟨p, hp, -⟩
      exact absurd hp (Nat.not_lt_zero _)
  | succ depth ih =>
      rw [reachTo, List.mem_cons, List.mem_flatMap]
      constructor
      · rintro (rfl | ⟨next, hnext, htarget⟩)
        · exact ⟨[], Nat.succ_pos depth, rfl⟩
        · obtain ⟨step, hstep⟩ := h.mem_links_getD_iff.mp hnext
          obtain ⟨p, hlength, hp⟩ := ih.mp htarget
          refine ⟨step :: p, Nat.succ_lt_succ hlength, ?_⟩
          rw [follow?_cons, hstep]
          exact hp
      · rintro ⟨p, hlength, hp⟩
        cases p with
        | nil => exact Or.inl (Option.some.inj hp).symm
        | cons step p =>
            obtain ⟨next, hstep, hrest⟩ := Option.bind_eq_some_iff.mp hp
            exact Or.inr ⟨next, h.mem_links_getD_iff.mpr ⟨step, hstep⟩,
              ih.mpr ⟨p, Nat.lt_of_succ_lt_succ hlength, hrest⟩⟩

end Cells

theorem getLast?_eq_of_mem_iff {α : Type} {l : List α} {own : Option α} (h : ∀ a, a ∈ l ↔ own = some a) :
    l.getLast? = own := by
  cases hlast : l.getLast? with
  | some a => exact ((h a).mp (List.mem_of_getLast? hlast)).symm
  | none =>
      rw [List.getLast?_eq_none_iff] at hlast
      subst hlast
      cases own with
      | none => rfl
      | some a => exact absurd ((h a).mpr rfl) List.not_mem_nil

namespace FieldTree

variable {tree : FieldTree} {ds : List FieldDefinition} {d : FieldDefinition}

/-- The definitions of the nodes in reach of the root. -/
def definitions (tree : FieldTree) : List FieldDefinition :=
  (tree.cells.reachTo tree.cells.size 0).filterMap fun index => tree.cells[index]?.bind (·.definition?)

theorem Sound.mem_definitions_iff (h : tree.Sound) :
    d ∈ tree.definitions ↔ ∃ p, tree.root.lookup? p = some (some d) := by
  rw [FieldTree.definitions, List.mem_filterMap]
  simp only [h.linked.mem_reachTo_iff, ← h.lookup?_eq, lookup?, Option.map_eq_some_iff]
  constructor
  · rintro ⟨index, ⟨p, -, hp⟩, hdefinition⟩
    exact ⟨p, index, hp, hdefinition⟩
  · rintro ⟨p, index, hp, hdefinition⟩
    -- A way down is no longer than there are cells, so the walk gets to its end.
    have hlt := h.linked.follow?_lt_size h.size_pos hp
    have hle := h.linked.add_length_le_of_follow? hp
    exact ⟨index, ⟨p, by omega, hp⟩, hdefinition⟩

theorem Sound.steps?_of_mem_definitions (h : tree.Sound) (hd : d ∈ tree.definitions) :
    ∃ p, steps? d.name = some p ∧ tree.root.lookup? p = some (some d) := by
  obtain ⟨p, hp⟩ := h.mem_definitions_iff.mp hd
  exact ⟨p, h.placed hp, hp⟩

/-- Definitions that are in one tree at the same time do not clash. -/
theorem Sound.coherent_definitions (h : tree.Sound) : Coherent tree.definitions := by
  constructor
  · intro d hd
    obtain ⟨p, hp, -⟩ := h.steps?_of_mem_definitions hd
    rw [hp]
    rfl
  · intro d hd e he p hp q hq hclash
    obtain ⟨p', hp', hdfound⟩ := h.steps?_of_mem_definitions hd
    obtain ⟨q', hq', hefound⟩ := h.steps?_of_mem_definitions he
    cases hp.symm.trans hp'
    cases hq.symm.trans hq'
    obtain ⟨node, hnode, -⟩ := Option.map_eq_some_iff.mp hdfound
    have hnone := FieldNode.find?_eq_none_of_clash (Option.isSome_iff_exists.mpr ⟨node, hnode⟩) hclash
    rw [FieldNode.lookup?, hnone] at hefound
    cases hefound

/-- Steps that the tree has are on the way to one of its definitions, and only those. -/
theorem Sound.covers_definitions (h : tree.Sound) (q : List Step) :
    covers tree.definitions q = (tree.root.lookup? q).isSome := by
  rw [Bool.eq_iff_iff, covers_iff, FieldNode.lookup?, Option.isSome_map]
  constructor
  · rintro (rfl | ⟨d, hd, p, hp, hpre⟩)
    · rfl
    · obtain ⟨p', hp', hfound⟩ := h.steps?_of_mem_definitions hd
      cases hp.symm.trans hp'
      obtain ⟨node, hnode, -⟩ := Option.map_eq_some_iff.mp hfound
      exact FieldNode.isSome_find?_of_isPrefix (Option.isSome_iff_exists.mpr ⟨node, hnode⟩) hpre
  · intro hsome
    obtain ⟨node, hnode⟩ := Option.isSome_iff_exists.mp hsome
    by_cases hq : q = []
    · exact Or.inl hq
    · obtain ⟨rest, d, hleaf⟩ := (h.record.of_find? hq hnode).exists_leaf
      have hfound : tree.root.lookup? (q ++ rest) = some (some d) := by
        rw [FieldNode.lookup?, FieldNode.find?_append, hnode, Option.bind_some, hleaf]
        rfl
      exact Or.inr ⟨d, h.mem_definitions_iff.mpr ⟨_, hfound⟩, _, h.placed hfound, List.prefix_append q rest⟩

theorem Sound.mem_namesakes_definitions_iff (h : tree.Sound) {q : List Step} :
    d ∈ namesakes tree.definitions q ↔ tree.root.lookup? q = some (some d) := by
  rw [mem_namesakes]
  constructor
  · rintro ⟨hd, hq⟩
    obtain ⟨p, hp, hfound⟩ := h.steps?_of_mem_definitions hd
    cases hq.symm.trans hp
    exact hfound
  · intro hfound
    exact ⟨h.mem_definitions_iff.mpr ⟨q, hfound⟩, h.placed hfound⟩

theorem Sound.declared?_definitions (h : tree.Sound) (hperm : ds.Perm tree.definitions) (q : List Step) :
    declared? ds q = tree.root.lookup? q := by
  rw [declared?, covers_perm hperm, h.covers_definitions]
  cases hfound : tree.root.lookup? q with
  | none => rfl
  | some own =>
      have hmem (e : FieldDefinition) : e ∈ namesakes ds q ↔ own = some e := by
        rw [mem_namesakes, hperm.mem_iff, ← mem_namesakes, h.mem_namesakes_definitions_iff, hfound,
          Option.some.injEq]
      rw [getLast?_eq_of_mem_iff hmem]
      rfl

theorem Sound.root_grown_definitions (h : tree.Sound) (table : Text) (hperm : ds.Perm tree.definitions) :
    (grown table ds).root = tree.root := by
  apply (sound_grown table ds).record.ext_lookup? h.record
  intro q
  rw [lookup?_root_grown table (h.coherent_definitions.perm hperm.symm), h.declared?_definitions hperm]

/-- Inserting the definitions of a tree into an empty one, in any order, gives an equal tree. -/
theorem foldlM_insert_definitions (table : Text) (history : List FieldDefinition) {ds : List FieldDefinition}
    (hperm : ds.Perm (grown table history).definitions) :
    ∃ next, ds.foldlM insert (empty (grown table history).table) = .ok next ∧
      (next == grown table history) = true := by
  have hsound := sound_grown table history
  have hcoherent := hsound.coherent_definitions.perm hperm.symm
  refine ⟨grown (grown table history).table ds, foldlM_insert_eq_ok _ hcoherent.readable, ?_⟩
  rw [(sound_grown _ _).beq_iff hsound, table_grown]
  exact ⟨rfl, hsound.root_grown_definitions _ hperm⟩

/-- A declared object with a child becomes a list, and one name in between cannot be read. -/
def turnedIntoList : List FieldDefinition :=
  [{ name := "a.b" }, { name := "a" }, { name := "a..b" }, { name := "a[*].c.d" }]

theorem foldlM_insert_definitions_of_turned_into_list :
    [{ name := "a[*].c.d" }, { name := "a" }].Perm (grown "t" turnedIntoList).definitions ∧
      ∃ next, [{ name := "a[*].c.d" }, { name := "a" }].foldlM insert (empty (grown "t" turnedIntoList).table) =
          .ok next ∧
        (next == grown "t" turnedIntoList) = true := by
  have hdefinitions : (grown "t" turnedIntoList).definitions = [{ name := "a" }, { name := "a[*].c.d" }] := by
    decide +kernel
  have hperm : [{ name := "a[*].c.d" }, { name := "a" }].Perm (grown "t" turnedIntoList).definitions := by
    rw [hdefinitions]
    decide
  exact ⟨hperm, foldlM_insert_definitions "t" turnedIntoList hperm⟩

end FieldTree

end SurrealZod
