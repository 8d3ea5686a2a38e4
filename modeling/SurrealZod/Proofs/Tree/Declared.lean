import SurrealZod.Proofs.Tree.Growth

/-! The tree of definitions that agree on which nodes are objects and which are lists. No insertion cuts
anything off then, and the tree can be read off the definitions: a node is there if the path of one leads
to it or through it, and it has the last definition that names it. -/

namespace SurrealZod

open FieldPath

/-- Definitions with readable names that use no node both as an object and as a list. -/
structure Coherent (definitions : List FieldDefinition) : Prop where
  readable : ∀ d ∈ definitions, (steps? d.name).isSome
  agree : ∀ d ∈ definitions, ∀ e ∈ definitions, ∀ p ∈ steps? d.name, ∀ q ∈ steps? e.name, ¬Clash p q

instance (definitions : List FieldDefinition) : Decidable (Coherent definitions) :=
  decidable_of_iff (_ ∧ _) ⟨fun h => ⟨h.1, h.2⟩, fun h => ⟨h.readable, h.agree⟩⟩

/-- Whether a path of the definitions leads along the steps. The record itself is always there. -/
def covers (definitions : List FieldDefinition) (q : List Step) : Bool :=
  q.isEmpty || definitions.any fun d => (steps? d.name).any fun p => q.isPrefixOf p

/-- The definitions whose names lead along the steps and no further. -/
def namesakes (definitions : List FieldDefinition) (q : List Step) : List FieldDefinition :=
  definitions.filter fun d => steps? d.name = some q

/-- What the definitions say of the end of the steps: nothing, or a node with the last definition naming it. -/
def declared? (definitions : List FieldDefinition) (q : List Step) : Option (Option FieldDefinition) :=
  if covers definitions q then some (namesakes definitions q).getLast? else none

variable {definitions others : List FieldDefinition} {d : FieldDefinition} {p q : List Step}

theorem Coherent.of_subset (h : Coherent definitions) (hsubset : others ⊆ definitions) : Coherent others :=
  ⟨fun d hd => h.readable d (hsubset hd), fun d hd e he => h.agree d (hsubset hd) e (hsubset he)⟩

theorem Coherent.perm (h : Coherent definitions) (hperm : definitions.Perm others) :
    Coherent others :=
  h.of_subset hperm.symm.subset

theorem covers_perm (hperm : definitions.Perm others) (q : List Step) : covers definitions q = covers others q := by
  rw [covers, hperm.any_eq, covers]

theorem covers_iff :
    covers definitions q = true ↔ q = [] ∨ ∃ d ∈ definitions, ∃ p, steps? d.name = some p ∧ q <+: p := by
  simp only [covers, Bool.or_eq_true, List.isEmpty_iff, List.any_eq_true, Option.any_eq_true,
    List.isPrefixOf_iff_prefix]

theorem mem_namesakes : d ∈ namesakes definitions q ↔ d ∈ definitions ∧ steps? d.name = some q := by
  rw [namesakes, List.mem_filter, decide_eq_true_iff]

/-! ### One more definition -/

theorem covers_concat (hp : steps? d.name = some p) :
    covers (definitions ++ [d]) q = true ↔ covers definitions q = true ∨ q <+: p := by
  simp only [covers, List.any_append, List.any_cons, List.any_nil, hp, Option.any_some, Bool.or_false,
    Bool.or_eq_true, or_assoc, List.isPrefixOf_iff_prefix]

theorem namesakes_concat_self (hp : steps? d.name = some p) :
    namesakes (definitions ++ [d]) p = namesakes definitions p ++ [d] := by
  simp [namesakes, List.filter_append, hp]

theorem namesakes_concat_of_ne (hp : steps? d.name = some p) (hne : q ≠ p) :
    namesakes (definitions ++ [d]) q = namesakes definitions q := by
  simp [namesakes, List.filter_append, hp, hne.symm]

/-- A definition that names a node is on the way to it. -/
theorem namesakes_eq_nil (h : covers definitions q = false) : namesakes definitions q = [] := by
  rw [List.eq_nil_iff_forall_not_mem]
  intro d hd
  obtain ⟨hmem, hq⟩ := mem_namesakes.mp hd
  rw [covers_iff.mpr (Or.inr ⟨d, hmem, q, hq, List.prefix_rfl⟩)] at h
  cases h

theorem declared?_getD (definitions : List FieldDefinition) (q : List Step) :
    (declared? definitions q).getD none = (namesakes definitions q).getLast? := by
  rw [declared?]
  split
  · rfl
  · rename_i h
    rw [namesakes_eq_nil (Bool.eq_false_of_not_eq_true h)]
    rfl

/-- No path of coherent definitions leads along steps that clash with one of them. -/
theorem Coherent.declared?_of_clash (h : Coherent definitions) (hd : d ∈ definitions)
    (hp : steps? d.name = some p) (hclash : Clash p q) : declared? definitions q = none := by
  rw [declared?, if_neg]
  intro hcovers
  rcases covers_iff.mp hcovers with rfl | ⟨e, he, r, hr, hpre⟩
  · exact not_clash_nil_left p hclash.symm
  · exact h.agree d hd e he p hp r hr (hclash.of_isPrefix hpre)

/-! ### The tree of coherent definitions -/

namespace FieldTree

theorem root_grown_concat (table : Text) (history : List FieldDefinition) (hp : steps? d.name = some p) :
    (grown table (history ++ [d])).root = FieldNode.insert d p (grown table history).root := by
  rw [grown_concat, tryInsert, insert_of_steps? hp, (sound_grown table history).root_insert]

theorem lookup?_root_grown (table : Text) {history : List FieldDefinition} (h : Coherent history) (q : List Step) :
    (grown table history).root.lookup? q = declared? history q := by
  induction history using List.reverseRecOn generalizing q with
  | nil =>
      rw [grown, List.foldl_nil, root_empty]
      cases q with
      | nil => rfl
      | cons step q => rw [FieldNode.lookup?, FieldNode.find?_blank_cons]; rfl
  | append_singleton history d ih =>
      obtain ⟨p, hp⟩ := Option.isSome_iff_exists.mp (h.readable d (List.mem_append_right _ List.mem_cons_self))
      have hold := ih (h.of_subset (List.subset_append_left _ _))
      rw [root_grown_concat table history hp]
      by_cases hclash : Clash p q
      · rw [FieldNode.lookup?_insert_of_clash _ _ hclash,
          h.declared?_of_clash (List.mem_append_right _ List.mem_cons_self) hp hclash]
      · by_cases hpre : q <+: p
        · have hcovers : covers (history ++ [d]) q = true := (covers_concat hp).mpr (Or.inr hpre)
          rw [declared?, if_pos hcovers]
          by_cases heq : q = p
          · subst heq
            rw [FieldNode.lookup?_insert_self, namesakes_concat_self hp, List.getLast?_concat]
          · rw [FieldNode.lookup?_insert_of_isPrefix _ _ hpre heq, hold, declared?_getD,
              namesakes_concat_of_ne hp heq]
        · have hne : q ≠ p := fun heq => hpre (heq ▸ List.prefix_rfl)
          rw [FieldNode.lookup?_insert_of_not_isPrefix _ _ hpre hclash, hold, declared?, declared?,
            namesakes_concat_of_ne hp hne]
          simp only [covers_concat hp, or_iff_left hpre]

end FieldTree

end SurrealZod
