import SurrealZod.Proofs.Field.Paths
import SurrealZod.Proofs.Tree.Order

/-! Definitions that a tree refuses. An insertion reads the whole path before it changes a cell: in place it does what
it does to a copy, or it fails and the tree is as it was. A table fails with the first of its own definitions whose
path cannot be read, whatever is behind it, and with no other one. -/

namespace SurrealZod

namespace FieldTree

/-! ### Insertion in place -/

/-- One step of an insertion in place, from the index of a cell to the index that the step leads to. -/
def walk (index : Nat) (step : Step) : StateM FieldTree Nat :=
  modifyGet fun tree =>
    ((tree.cells.descend index step).2, { tree with cells := (tree.cells.descend index step).1 })

/-- What an insertion in place does once it has read the path. -/
def attach (definition : FieldDefinition) (index : Nat) (steps : List Step) : StateM FieldTree Unit := do
  let target ← steps.foldlM walk index
  modify fun tree => { tree with cells := tree.cells.modify target (·.define definition) }

/-- An insertion that changes the tree in place. -/
def place (definition : FieldDefinition) : ExceptT Error (StateM FieldTree) Unit := do
  match FieldPath.steps? definition.name with
  | some steps => attach definition 0 steps
  | none => throw (.emptyFieldPath (← get).table definition.name)

variable {table : Text} {tree next after : FieldTree} {definition : FieldDefinition} {e : Error}

theorem run_attach (definition : FieldDefinition) (index : Nat) (steps : List Step) (tree : FieldTree) :
    (attach definition index steps).run tree =
      ((), { tree with cells := tree.cells.insert definition index steps }) := by
  induction steps generalizing index tree with
  | nil => rfl
  | cons step steps ih =>
      rw [attach, List.foldlM_cons, bind_assoc, StateT.run_bind]
      exact ih _ _

theorem run_place_of_steps? {steps : List Step} (h : FieldPath.steps? definition.name = some steps) (tree : FieldTree) :
    (place definition).run.run tree = (.ok (), { tree with cells := tree.cells.insert definition 0 steps }) := by
  rw [place, h]
  show (attach definition 0 steps >>= fun _ => pure (Except.ok ())).run tree = _
  rw [StateT.run_bind, run_attach]
  rfl

theorem run_place_of_none (h : FieldPath.steps? definition.name = none) (tree : FieldTree) :
    (place definition).run.run tree = (.error (.emptyFieldPath tree.table definition.name), tree) := by
  rw [place, h]
  rfl

/-- In place or not, an insertion succeeds with the same tree. -/
theorem run_place_eq_ok_iff :
    (place definition).run.run tree = (.ok (), next) ↔ tree.insert definition = .ok next := by
  cases h : FieldPath.steps? definition.name with
  | none =>
      rw [run_place_of_none h, insert, h]
      exact iff_of_false (fun heq => by cases heq) (fun heq => by cases heq)
  | some steps =>
      rw [run_place_of_steps? h, insert_of_steps? h, Prod.mk.injEq, and_iff_right rfl, Except.ok.injEq]

/-- An insertion fails for its path only, and then leaves the tree as it was. -/
theorem run_place_eq_error_iff :
    (place definition).run.run tree = (.error e, after) ↔
      FieldPath.steps? definition.name = none ∧ e = .emptyFieldPath tree.table definition.name ∧ after = tree := by
  cases h : FieldPath.steps? definition.name with
  | none =>
      rw [run_place_of_none h, Prod.mk.injEq, Except.error.injEq, eq_comm, @eq_comm _ tree, and_iff_right rfl]
  | some steps =>
      rw [run_place_of_steps? h]
      refine iff_of_false (fun heq => by cases heq) ?_
      rintro ⟨hnone, -⟩
      cases hnone

/-! ### All definitions of a table -/

/-- Whether a table takes a definition and cannot read its path. -/
def Refuses (table : Text) (definition : FieldDefinition) : Prop :=
  (definition.table = [] ∨ definition.table = table) ∧ FieldPath.steps? definition.name = none

instance (table : Text) (definition : FieldDefinition) : Decidable (Refuses table definition) :=
  inferInstanceAs (Decidable (_ ∧ _))

theorem isForeign_eq_false_iff :
    isForeign table definition = false ↔ definition.table = [] ∨ definition.table = table := by
  simp [isForeign, Classical.or_iff_not_imp_left]

variable {definitions : List FieldDefinition}

theorem isSome_steps?_of_mem_native (h : ∀ d ∈ definitions, ¬Refuses table d) :
    ∀ d ∈ native table definitions, (FieldPath.steps? d.name).isSome := by
  intro d hd
  obtain ⟨hmem, hnative⟩ := List.mem_filter.mp hd
  rw [Option.isSome_iff_ne_none]
  exact fun hnone => h d hmem ⟨isForeign_eq_false_iff.mp (by simpa using hnative), hnone⟩

theorem ofDefinitions_of_readable (h : ∀ d ∈ definitions, ¬Refuses table d) :
    ofDefinitions table definitions = .ok (grown table (native table definitions)) := by
  rw [ofDefinitions_eq_foldlM, foldlM_insert_eq_ok _ (isSome_steps?_of_mem_native h), grown]

/-- The first definition that a table refuses is its failure, whatever is behind it. -/
theorem ofDefinitions_of_refuses {before behind : List FieldDefinition} (hbefore : ∀ d ∈ before, ¬Refuses table d)
    (h : Refuses table definition) :
    ofDefinitions table (before ++ definition :: behind) = .error (.emptyFieldPath table definition.name) := by
  have hnative : native table (before ++ definition :: behind) =
      native table before ++ definition :: native table behind := by
    rw [native, List.filter_append, List.filter_cons_of_pos (by rw [isForeign_eq_false_iff.mpr h.1]; rfl)]
    rfl
  have hready := foldlM_insert_eq_ok (empty table) (isSome_steps?_of_mem_native hbefore)
  calc ofDefinitions table (before ++ definition :: behind)
      = (native table before ++ definition :: native table behind).foldlM insert (empty table) := by
        rw [ofDefinitions_eq_foldlM, hnative]
    _ = insert (grown table (native table before)) definition >>= (native table behind).foldlM insert := by
        rw [List.foldlM_append, hready, grown]
        rfl
    _ = .error (.emptyFieldPath table definition.name) := by
        rw [insert, h.2, table_grown]
        rfl

theorem exists_ofDefinitions_eq_error_iff :
    (∃ e, ofDefinitions table definitions = .error e) ↔ ∃ d ∈ definitions, Refuses table d := by
  constructor
  · rintro ⟨e, h⟩
    by_contra hnone
    rw [ofDefinitions_of_readable fun d hd hrefuses => hnone ⟨d, hd, hrefuses⟩] at h
    cases h
  · intro h
    obtain ⟨d, hd⟩ := Option.isSome_iff_exists.mp (List.find?_isSome.mpr (by simpa using h) :
      (definitions.find? fun d => Refuses table d).isSome)
    obtain ⟨hrefuses, before, behind, rfl, hbefore⟩ := List.find?_eq_some_iff_append.mp hd
    exact ⟨_, ofDefinitions_of_refuses (by simpa using hbefore) (of_decide_eq_true hrefuses)⟩

end FieldTree

open FieldPath FieldTree

/-- A path gives steps with clean names iff it spells them, with fields and elements as segments of their own, elements
also as marks behind other segments, and any white space around the segments; all steps that begin with a field and
have clean names have a spelling. A path gives no steps iff a segment is blank or its first one has no name. A table
fails iff it refuses one of its definitions, and then with the path of the first of them. An insertion that fails
leaves the tree as it was. -/
theorem field_paths_read_or_refused :
    (∀ steps : List Step, (∃ segments, Spells steps segments) ↔
      (∃ name rest, steps = .field name :: rest) ∧ ∀ name, .field name ∈ steps → IsClean name) ∧
    (∀ path steps, (steps? path = some steps ∧ ∀ name, .field name ∈ steps → IsClean name) ↔
      ∃ parts : List Text.Padded,
        path = Text.join ['.'] (parts.map (·.written)) ∧ Spells steps (parts.map (·.text))) ∧
    (∀ path, steps? path = none ↔
      (∃ segment ∈ path.splitOn '.', ∀ c ∈ segment, Text.isBlank c = true) ∨
        ∃ segment ∈ (path.splitOn '.').head?, IsNameless (Text.trim segment)) ∧
    (∀ table definitions, ((∃ e, ofDefinitions table definitions = .error e) ↔ ∃ d ∈ definitions, Refuses table d) ∧
      ∀ before d behind, definitions = before ++ d :: behind → (∀ other ∈ before, ¬Refuses table other) →
        Refuses table d → ofDefinitions table definitions = .error (.emptyFieldPath table d.name)) ∧
    ∀ (tree : FieldTree) (definition : FieldDefinition),
      (∀ next, (place definition).run.run tree = (.ok (), next) ↔ tree.insert definition = .ok next) ∧
      ∀ e after, (place definition).run.run tree = (.error e, after) ↔
        steps? definition.name = none ∧ e = .emptyFieldPath tree.table definition.name ∧ after = tree := by
  refine ⟨fun steps => exists_spells_iff, fun path steps => steps?_eq_some_iff_spells, fun path => steps?_eq_none_iff,
    fun table definitions => ⟨exists_ofDefinitions_eq_error_iff, ?_⟩, fun tree definition => ?_⟩
  · rintro before d behind rfl hbefore hrefuses
    exact ofDefinitions_of_refuses hbefore hrefuses
  · exact ⟨fun next => run_place_eq_ok_iff, fun e after => run_place_eq_error_iff⟩

/-- A path with marks, a star and a name in brackets, a definition of another table, and two refused definitions. -/
theorem field_paths_read_or_refused_of_mixed_spellings :
    steps? " a[0] . * .b[x][*][] " =
      some [.field "a", .element, .element, .field "b[x]", .element, .element] ∧
    ofDefinitions "t" [{ name := "..", table := "u" }, { name := "a[]" }, { name := "a. .b" }, { name := "*[0]" }] =
      .error (.emptyFieldPath "t" "a. .b") := by
  have hspace : ∀ c ∈ [' '], Text.isBlank c = true := List.forall_mem_singleton.mpr rfl
  obtain ⟨-, hread, -, htable, -⟩ := field_paths_read_or_refused
  constructor
  · refine ((hread _ _).mpr ⟨[⟨"a[0]".toList, [' '], [' '], hspace, hspace, by decide⟩,
      ⟨['*'], [' '], [' '], hspace, hspace, rfl⟩,
      ⟨"b[x][*][]".toList, [], [' '], List.forall_mem_nil _, hspace, by decide⟩], rfl, ?_⟩).1
    have hfirst : Spells [.field ['a']] ([] ++ [['a']]) := .first (by decide)
    have helement : Spells [.field ['a'], .element] ([] ++ ["a[0]".toList]) := hfirst.mark (by decide)
    have hname : Spells ([.field ['a'], .element] ++ [.element] ++ [.field "b[x]".toList])
        (["a[0]".toList] ++ [['*']] ++ ["b[x]".toList]) := (helement.element (Or.inl rfl)).field (by decide)
    have hstar : Spells _ (["a[0]".toList, ['*']] ++ ["b[x]".toList ++ "[*]".toList]) := hname.mark (by decide)
    exact hstar.mark (by decide)
  · exact (htable _ _).2 [{ name := "..", table := "u" }, { name := "a[]" }] _ [{ name := "*[0]" }] rfl (by decide)
      (by decide)

end SurrealZod
