import SurrealZod.Proofs.Tree.Declared
import SurrealZod.Zod.Declaration

/-! The order of declarations. A parent may be declared before or after its children, and the definitions
of one table may stand in any order between those of others: as long as no node is used both as an object
and as a list, only the order of definitions of the same path counts. -/

namespace SurrealZod

open FieldPath

variable {as bs : List FieldDefinition} {table : Text}

theorem declared?_perm (hperm : as.Perm bs) (hkeep : ∀ p, namesakes as p = namesakes bs p) (q : List Step) :
    declared? as q = declared? bs q := by
  rw [declared?, covers_perm hperm, hkeep, declared?]

/-- It is enough to look at the paths that the definitions have. -/
theorem namesakes_eq_of_forall_mem
    (h : ∀ d ∈ as ++ bs, ∀ p ∈ steps? d.name, namesakes as p = namesakes bs p) (p : List Step) :
    namesakes as p = namesakes bs p := by
  by_cases hd : ∃ d ∈ as ++ bs, steps? d.name = some p
  · obtain ⟨d, hmem, hp⟩ := hd
    exact h d hmem p hp
  · have hnil {ds : List FieldDefinition} (hds : ds ⊆ as ++ bs) : namesakes ds p = [] := by
      rw [List.eq_nil_iff_forall_not_mem]
      intro d hmem
      exact hd ⟨d, hds (mem_namesakes.mp hmem).1, (mem_namesakes.mp hmem).2⟩
    rw [hnil (List.subset_append_left as bs), hnil (List.subset_append_right as bs)]

namespace FieldTree

/-- The definitions that a table takes: those that do not name another one. -/
def native (table : Text) (definitions : List FieldDefinition) : List FieldDefinition :=
  definitions.filter fun d => !isForeign table d

theorem namesakes_native (table : Text) (definitions : List FieldDefinition) (p : List Step) :
    namesakes (native table definitions) p = native table (namesakes definitions p) := by
  rw [namesakes, native, List.filter_comm]
  rfl

/-- Definitions of other tables may as well not be there. -/
theorem ofDefinitions_eq_foldlM (table : Text) (definitions : List FieldDefinition) :
    ofDefinitions table definitions = (native table definitions).foldlM insert (empty table) := by
  rw [native, List.foldlM_filter, ofDefinitions]
  congr
  funext tree d
  cases isForeign table d <;> rfl

theorem ofDefinitions_eq_ok (h : Coherent (native table as)) :
    ofDefinitions table as = .ok (grown table (native table as)) := by
  rw [ofDefinitions_eq_foldlM, foldlM_insert_eq_ok _ h.readable, grown]

theorem declaration_congr {tree other : FieldTree} (htable : tree.table = other.table)
    (hroot : tree.root = other.root) (kind : SchemaKind) (strict : Bool) :
    tree.declaration kind strict = other.declaration kind strict := by
  have hexpression : tree.schemaExpression kind strict = other.schemaExpression kind strict := by
    unfold schemaExpression
    rw [hroot]
  unfold declaration
  rw [htable, hexpression]

theorem root_grown_perm (table : Text) (h : Coherent as) (hperm : as.Perm bs)
    (hkeep : ∀ p, namesakes as p = namesakes bs p) : (grown table as).root = (grown table bs).root := by
  apply (sound_grown table as).record.ext_lookup? (sound_grown table bs).record
  intro q
  rw [lookup?_root_grown table h, lookup?_root_grown table (h.perm hperm), declared?_perm hperm hkeep]

/-- Two orders of the same definitions give equal trees with the same declarations, if the definitions of
each path keep their order and those the table takes are coherent. -/
theorem ofDefinitions_perm (table : Text) {as bs : List FieldDefinition} (hperm : as.Perm bs)
    (hkeep : ∀ p, namesakes as p = namesakes bs p) (hcoherent : Coherent (native table as)) :
    ∃ tree other, ofDefinitions table as = .ok tree ∧ ofDefinitions table bs = .ok other ∧
      (tree == other) = true ∧
      ∀ kind strict, tree.declaration kind strict = other.declaration kind strict := by
  have hnative : (native table as).Perm (native table bs) := hperm.filter _
  have hkeepNative (p : List Step) : namesakes (native table as) p = namesakes (native table bs) p := by
    rw [namesakes_native, namesakes_native, hkeep]
  have hroot := root_grown_perm table hcoherent hnative hkeepNative
  have htable : (grown table (native table as)).table = (grown table (native table bs)).table := by
    rw [table_grown, table_grown]
  exact ⟨_, _, ofDefinitions_eq_ok hcoherent, ofDefinitions_eq_ok (hcoherent.perm hnative),
    ((sound_grown _ _).beq_iff (sound_grown _ _)).mpr ⟨htable, hroot⟩, declaration_congr htable hroot⟩

/-- An object declared before its child and once more behind it, and an element that another table declares. -/
def parentFirst : List FieldDefinition :=
  [{ name := "a" }, { name := "a[*]", table := "u" }, { name := "a.b" }, { name := "a", table := "t" }]

/-- The same definitions with the child in front. -/
def childFirst : List FieldDefinition :=
  [{ name := "a.b" }, { name := "a" }, { name := "a", table := "t" }, { name := "a[*]", table := "u" }]

theorem ofDefinitions_perm_child_first :
    parentFirst.Perm childFirst ∧ (∀ p, namesakes parentFirst p = namesakes childFirst p) ∧
      Coherent (native "t" parentFirst) ∧
      ∃ tree other, ofDefinitions "t" parentFirst = .ok tree ∧ ofDefinitions "t" childFirst = .ok other ∧
        (tree == other) = true ∧
        ∀ kind strict, tree.declaration kind strict = other.declaration kind strict := by
  have hperm : parentFirst.Perm childFirst := by decide
  have hkeep : ∀ p, namesakes parentFirst p = namesakes childFirst p :=
    namesakes_eq_of_forall_mem (by decide)
  have hcoherent : Coherent (native "t" parentFirst) := by decide
  exact ⟨hperm, hkeep, hcoherent, ofDefinitions_perm "t" hperm hkeep hcoherent⟩

end FieldTree

end SurrealZod
