import SurrealZod.Proofs.Tree.Growth

/-! The law of insertion. What a tree has at any path after an insertion is determined by what it had
there before and by how that path relates to the one inserted at, whatever insertions came earlier. -/

namespace SurrealZod.FieldTree

open FieldPath

variable {tree next : FieldTree} {definition : FieldDefinition} {p q : List Step}

theorem Sound.lookup?_insert_eq (h : tree.Sound) (hp : steps? definition.name = some p)
    (hinsert : tree.insert definition = .ok next) (q : List Step) :
    next.lookup? q = (FieldNode.insert definition p tree.root).lookup? q := by
  rw [(h.insert hinsert).lookup?_eq]
  rw [insert_of_steps? hp] at hinsert
  cases hinsert
  rw [h.root_insert]

/-- An insertion at a path `p` cuts off what clashes with it, sets the definition at `p`, leaves every
node on the way with the definition that it had, if it was there, and changes nothing else. So a path
that is there already has only its own definition overwritten, and no node loses its definition by
becoming an object or a list. -/
theorem lookups_after_insert (table : Text) (history : List FieldDefinition) {definition : FieldDefinition}
    {p : List Step} (hp : steps? definition.name = some p) :
    ∃ next, (grown table history).insert definition = .ok next ∧
      (∀ q,
        (Clash p q → next.lookup? q = none) ∧
        (¬Clash p q →
          (q = p → next.lookup? q = some (some definition)) ∧
          (q <+: p → q ≠ p → next.lookup? q = some (((grown table history).lookup? q).getD none)) ∧
          (¬q <+: p → next.lookup? q = (grown table history).lookup? q))) ∧
      (((grown table history).lookup? p).isSome →
        ∀ q, q ≠ p → next.lookup? q = (grown table history).lookup? q) ∧
      (∀ q own, q <+: p → q ≠ p → (grown table history).lookup? q = some (some own) →
        next.lookup? q = some (some own)) := by
  have hsound := sound_grown table history
  have hinsert := @insert_of_steps? (grown table history) _ _ hp
  refine ⟨_, hinsert, ?_, ?_, ?_⟩
  · intro q
    rw [hsound.lookup?_insert_eq hp hinsert, hsound.lookup?_eq]
    constructor
    · intro hclash
      exact FieldNode.lookup?_insert_of_clash _ _ hclash
    · intro hclash
      refine ⟨?_, ?_, ?_⟩
      · rintro rfl
        exact FieldNode.lookup?_insert_self _ _ _
      · intro hpre hne
        exact FieldNode.lookup?_insert_of_isPrefix _ _ hpre hne
      · intro hpre
        exact FieldNode.lookup?_insert_of_not_isPrefix _ _ hpre hclash
  · intro hsome q hne
    rw [hsound.lookup?_eq] at hsome
    rw [hsound.lookup?_insert_eq hp hinsert, hsound.lookup?_eq]
    exact FieldNode.lookup?_insert_of_isSome _ hsome hne
  · intro q own hpre hne hown
    rw [hsound.lookup?_eq] at hown
    rw [hsound.lookup?_insert_eq hp hinsert, FieldNode.lookup?_insert_of_isPrefix _ _ hpre hne, hown,
      Option.getD_some]

/-- A declared object with a child becomes a list: it keeps its definition, and the child is cut off. -/
theorem lookups_after_insert_into_object :
    steps? "a.*.c" = some [.field "a", .element, .field "c"] ∧
      (grown "t" [{ name := "a.b" }, { name := "a" }]).lookup? [.field "a", .field "b"] =
        some (some { name := "a.b" }) ∧
      ∃ next, (grown "t" [{ name := "a.b" }, { name := "a" }]).insert { name := "a.*.c" } = .ok next ∧
        next.lookup? [.field "a", .field "b"] = none ∧
        next.lookup? [.field "a"] = some (some { name := "a" }) ∧
        next.lookup? [.field "a", .element] = some none ∧
        next.lookup? [.field "a", .element, .field "c"] = some (some { name := "a.*.c" }) := by
  have hsteps : steps? "a.*.c" = some [.field "a", .element, .field "c"] := by decide
  obtain ⟨next, hinsert, hlaw, -, hkept⟩ :=
    @lookups_after_insert "t" [{ name := "a.b" }, { name := "a" }] { name := "a.*.c" } _ hsteps
  refine ⟨hsteps, by decide +kernel, next, hinsert, ?_, ?_, ?_, ?_⟩
  · exact (hlaw _).1 (by decide)
  · exact hkept _ _ (by decide) (by decide) (by decide +kernel)
  · rw [((hlaw _).2 (by decide)).2.1 (by decide) (by decide)]
    decide +kernel
  · exact ((hlaw _).2 (by decide)).1 rfl

end SurrealZod.FieldTree
