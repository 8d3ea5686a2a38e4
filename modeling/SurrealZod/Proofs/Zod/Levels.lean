import Mathlib.Data.List.Infix
import SurrealZod.Proofs.Tree.Growth
import SurrealZod.Proofs.Zod.Solidity
import SurrealZod.Zod.Declaration

/-! The levels of a declaration. Each object of the tree that a schema has is an object expression in its
declaration. Between the braces, the commas that stand outside of literals and inner brackets divide the text
into one entry per child that the schema has, in the order of the names, and a rest of white space. No text
of a field, a type or a clause breaks out of the place it has. -/

namespace SurrealZod

open Lexical Lexical.State

namespace Zod

/-- An entry of an object expression, without the comma behind it. -/
def entryText (depth : Nat) (entry : Text × Text) : Text :=
  '\n' :: indent depth ++ propertyKey entry.1 ++ ": " ++ entry.2

/-- What stands between the last comma of an object expression and its closing brace. -/
def lastBlank (depth : Nat) (entries : List (Text × Text)) : Text :=
  if entries = [] then [] else '\n' :: indent depth

/-- The text between the braces of an object expression. -/
def interior (depth : Nat) (entries : List (Text × Text)) : Text :=
  (entries.map (entryText (depth + 1))).flatMap (· ++ [',']) ++ lastBlank depth entries

theorem cons_join_newline {lines : List Text} (h : lines ≠ []) :
    '\n' :: Text.join ['\n'] lines = lines.flatMap ('\n' :: ·) := by
  induction lines with
  | nil => exact absurd rfl h
  | cons line rest ih =>
      cases rest with
      | nil => simp
      | cons next rest =>
          rw [Text.join, List.intercalate_cons_cons, List.flatMap_cons, ← ih (List.cons_ne_nil _ _)]
          simp

theorem entryText_append_comma (depth : Nat) (entry : Text × Text) :
    entryText depth entry ++ [','] = '\n' :: property depth entry.1 entry.2 := rfl

theorem object_eq (depth : Nat) (entries : List (Text × Text)) :
    object depth (entries.map fun entry => property (depth + 1) entry.1 entry.2) =
      "z.object(\x7b" ++ interior depth entries ++ "\x7d)" := by
  by_cases hempty : entries = []
  · subst hempty
    rfl
  · have hopening : ("z.object(\x7b\n" : Text) = ("z.object(\x7b" : Text) ++ ['\n'] := by decide
    have hlines : (entries.map (entryText (depth + 1))).flatMap (· ++ [',']) =
        '\n' :: Text.join ['\n'] (entries.map fun entry => property (depth + 1) entry.1 entry.2) := by
      rw [cons_join_newline (mt List.map_eq_nil_iff.mp hempty), List.flatMap_map, List.flatMap_map]
      exact List.flatMap_congr fun entry _ => entryText_append_comma (depth + 1) entry
    rw [object, if_neg (mt List.map_eq_nil_iff.mp hempty), interior, hlines, lastBlank, if_neg hempty, hopening]
    simp only [List.append_assoc, List.cons_append, List.nil_append]

theorem solid_indent (depth : Nat) : Solid (indent depth) := by
  apply solid_of_disjoint_marks
  intro c hc
  rw [List.eq_of_mem_replicate hc]
  decide

theorem solid_entryHead (depth : Nat) (name : Text) : Solid ('\n' :: indent depth ++ propertyKey name ++ ": ") := by
  have hnewline : Solid ['\n'] := by decide
  exact ((hnewline.append (solid_indent depth)).append (solid_propertyKey name)).append (by decide)

theorem solid_entryText (depth : Nat) {entry : Text × Text} (h : Solid entry.2) : Solid (entryText depth entry) :=
  (solid_entryHead depth entry.1).append h

theorem isBlank_of_mem_lastBlank {depth : Nat} {entries : List (Text × Text)} {c : Char}
    (h : c ∈ lastBlank depth entries) : Text.isBlank c = true := by
  unfold lastBlank at h
  split at h
  · cases h
  · rcases List.mem_cons.mp h with rfl | h
    · decide
    · rw [List.eq_of_mem_replicate h]
      decide

theorem solid_lastBlank (depth : Nat) (entries : List (Text × Text)) : Solid (lastBlank depth entries) :=
  solid_of_forall (by decide) fun _ hc => isBlank_of_mem_lastBlank hc

variable {depth : Nat} {entries : List (Text × Text)}

theorem read?_interior (h : ∀ entry ∈ entries, Solid entry.2) :
    outside.read? (interior depth entries) =
      some (entries.map (entryText (depth + 1)) ++ [lastBlank depth entries], outside) := by
  apply read?_flatMap_comma ?_ (solid_lastBlank depth entries)
  intro piece hpiece
  obtain ⟨entry, hentry, rfl⟩ := List.mem_map.mp hpiece
  exact solid_entryText _ (h entry hentry)

theorem solid_object (h : ∀ entry ∈ entries, Solid entry.2) :
    Solid (object depth (entries.map fun entry => property (depth + 1) entry.1 entry.2)) := by
  have hinterior : WellFormed (interior depth entries) := by
    rw [WellFormed, after?, read?_interior h, Option.map_some]
  rw [object_eq]
  exact hinterior.solid_enclosed (by decide : Encloses [.curly, .round] "z.object(\x7b" "\x7d)")

theorem occursIn_object (h : ∀ entry ∈ entries, Solid entry.2) {entry : Text × Text} (hentry : entry ∈ entries) :
    OccursIn entry.2 (object depth (entries.map fun entry => property (depth + 1) entry.1 entry.2)) := by
  obtain ⟨front, behind, rfl⟩ := List.append_of_mem hentry
  have hfront : ∀ piece ∈ front.map (entryText (depth + 1)), Solid piece := by
    intro piece hpiece
    obtain ⟨other, hother, rfl⟩ := List.mem_map.mp hpiece
    exact solid_entryText _ (h other (List.mem_append_left _ hother))
  have hread := read?_flatMap_comma hfront (solid_entryHead (depth + 1) entry.1)
  have hinterior : OccursIn entry.2 (interior depth (front ++ entry :: behind)) := by
    refine ⟨_, [','] ++ (behind.map (entryText (depth + 1))).flatMap (· ++ [',']) ++
      lastBlank depth (front ++ entry :: behind), [], ?_, congrArg (Option.map Prod.snd) hread⟩
    simp [interior, entryText]
  rw [object_eq]
  exact (hinterior.prepend [.curly, .round] (by decide)).of_isPrefix (List.prefix_append _ _)

end Zod

namespace FieldNode

variable {kind : SchemaKind} {depth : Nat} {node next : FieldNode} {children : List (Text × FieldNode)}

/-- The children that a schema has, by name, with their expressions. -/
def entries (kind : SchemaKind) (depth : Nat) (children : List (Text × FieldNode)) : List (Text × Text) :=
  children.filterMap fun child => (fragment? kind depth child.2).map fun fragment => (child.1, fragment.expression)

theorem properties_eq (kind : SchemaKind) (depth : Nat) (children : List (Text × FieldNode)) :
    properties kind depth children =
      (entries kind depth children).map fun entry => Zod.property depth entry.1 entry.2 := by
  induction children with
  | nil => rfl
  | cons child rest ih =>
      rw [properties, entries, List.filterMap_cons, ih]
      cases fragment? kind depth child.2 <;> rfl

theorem isSome_fragment? (kind : SchemaKind) (depth : Nat) (node : FieldNode) :
    (fragment? kind depth node).isSome = !kind.omits node.definition? := by
  cases node with
  | list definition element =>
      cases element <;> rw [fragment?, definition?] <;> cases kind.omits definition <;> rfl
  | leaf definition => 
      rw [fragment?, definition?]
      cases kind.omits (some definition) <;> rfl
  | branch definition children =>
      rw [fragment?, definition?]
      cases kind.omits definition <;> rfl

theorem map_fst_entries (kind : SchemaKind) (depth : Nat) (children : List (Text × FieldNode)) :
    (entries kind depth children).map (·.1) =
      (children.filter fun child => !kind.omits child.2.definition?).map (·.1) := by
  induction children with
  | nil => rfl
  | cons child rest ih =>
      have hsome := isSome_fragment? kind depth child.2
      rw [entries, List.filterMap_cons, List.filter_cons, ← hsome]
      cases fragment? kind depth child.2 with
      | none => exact ih
      | some fragment => exact congrArg (child.1 :: ·) ih

theorem fragment?_branch (definition : Option FieldDefinition) (children : List (Text × FieldNode)) :
    fragment? kind depth (branch definition children) =
      if kind.omits definition then none
      else some (objectFragment definition (Zod.object depth
        ((entries kind (depth + 1) children).map fun entry => Zod.property (depth + 1) entry.1 entry.2))) := by
  rw [fragment?, properties_eq]

theorem fragment?_list (definition : Option FieldDefinition) (element : Option FieldNode) :
    fragment? kind depth (list definition element) =
      if kind.omits definition then none
      else some (listFragment definition ((element.bind (fragment? kind depth)).map (·.expression))) := by
  cases element <;> rw [fragment?] <;> rfl

/-! ### Fragments -/

theorem isPrefix_objectFragment (definition : Option FieldDefinition) (object : Text) :
    object <+: (objectFragment definition object).expression := by
  cases definition with
  | none => exact List.prefix_rfl
  | some definition => exact isPrefix_constrain _ _ _

theorem solid_objectFragment (definition : Option FieldDefinition) {object : Text} (h : Solid object) :
    Solid (objectFragment definition object).expression := by
  cases definition with
  | none => exact h
  | some definition => exact solid_constrain h _ _

theorem isPrefix_listFragment (definition : Option FieldDefinition) (element : Text) :
    Zod.array element <+: (listFragment definition (some element)).expression := by
  cases definition with
  | none => exact List.prefix_rfl
  | some definition => exact isPrefix_constrain _ _ _

theorem solid_listFragment (definition : Option FieldDefinition) {element : Option Text}
    (h : ∀ expression ∈ element, Solid expression) : Solid (listFragment definition element).expression := by
  have hany : Solid (Zod.array Zod.any) := by decide
  cases definition with
  | none =>
      cases element with
      | none => exact hany
      | some expression => exact Zod.solid_array (h expression rfl)
  | some definition =>
      cases element with
      | none =>
          rw [listFragment]
          split
          · exact definition.solid_leafFragment
          · exact solid_constrain hany _ _
      | some expression => exact solid_constrain (Zod.solid_array (h expression rfl)) _ _

mutual

/-- Whatever the texts of its definitions say, a node's expression is solid. -/
theorem solid_fragment? (kind : SchemaKind) (depth : Nat) : (node : FieldNode) →
    ∀ fragment ∈ fragment? kind depth node, Solid fragment.expression
  | leaf definition, fragment, h => by
      obtain ⟨-, h⟩ := Option.ite_none_left_eq_some.mp h
      cases h
      exact definition.solid_leafFragment
  | branch definition children, fragment, h => by
      rw [Option.mem_def, fragment?_branch] at h
      obtain ⟨-, h⟩ := Option.ite_none_left_eq_some.mp h
      cases h
      exact solid_objectFragment _ (Zod.solid_object (solid_entries kind (depth + 1) children))
  | list definition none, fragment, h => by
      rw [Option.mem_def, fragment?_list] at h
      obtain ⟨-, h⟩ := Option.ite_none_left_eq_some.mp h
      cases h
      exact solid_listFragment _ fun expression hexpression => by cases hexpression
  | list definition (some element), fragment, h => by
      rw [Option.mem_def, fragment?_list] at h
      obtain ⟨-, h⟩ := Option.ite_none_left_eq_some.mp h
      cases h
      apply solid_listFragment
      intro expression hexpression
      obtain ⟨inner, hinner, rfl⟩ := Option.map_eq_some_iff.mp hexpression
      exact solid_fragment? kind depth element inner hinner

theorem solid_entries (kind : SchemaKind) (depth : Nat) : (children : List (Text × FieldNode)) →
    ∀ entry ∈ entries kind depth children, Solid entry.2
  | [], entry, h => by cases h
  | (name, node) :: rest, entry, h => by
      rw [entries, List.filterMap_cons] at h
      cases hfragment : fragment? kind depth node with
      | none =>
          rw [hfragment, Option.map_none] at h
          exact solid_entries kind depth rest entry h
      | some fragment =>
          rw [hfragment, Option.map_some] at h
          rcases List.mem_cons.mp h with rfl | h
          · exact solid_fragment? kind depth node fragment hfragment
          · exact solid_entries kind depth rest entry h

end

/-! ### Paths -/

/-- How much deeper a step goes: an object indents its entries, a list does not. -/
def stepDepth (step : Step) : Nat := if step.isElement then 0 else 1

theorem stepDepth_eq (step : Step) : stepDepth step = if (!step.isElement) = true then 1 else 0 := by
  cases step <;> rfl

/-- A schema that has a node and the next one writes the expression of the next one into that of the node. -/
theorem occursIn_step {step : Step} (hstep : node.step? step = some next) {outer inner : Fragment}
    (houter : fragment? kind depth node = some outer)
    (hinner : fragment? kind (depth + stepDepth step) next = some inner) :
    OccursIn inner.expression outer.expression := by
  cases step with
  | element =>
      cases node with
      | list definition element =>
          rw [fragment?_list] at houter
          obtain ⟨-, houter⟩ := Option.ite_none_left_eq_some.mp houter
          cases houter
          have helement : element = some next := hstep
          have hfragment : fragment? kind depth next = some inner := hinner
          rw [helement, Option.bind_some, hfragment, Option.map_some]
          refine OccursIn.of_isPrefix ?_ (isPrefix_listFragment _ _)
          exact ((occursIn_self _).prepend [.round] (by decide)).of_isPrefix (List.prefix_append _ _)
      | _ => cases hstep
  | field name =>
      cases node with
      | branch definition children =>
          rw [fragment?_branch] at houter
          obtain ⟨-, houter⟩ := Option.ite_none_left_eq_some.mp houter
          cases houter
          have hmem : (name, inner.expression) ∈ entries kind (depth + 1) children := by
            refine List.mem_filterMap.mpr ⟨(name, next), Text.mem_of_get?_eq_some hstep, ?_⟩
            have hfragment : fragment? kind (depth + 1) next = some inner := hinner
            rw [hfragment, Option.map_some]
          exact (Zod.occursIn_object (solid_entries kind _ children) hmem).of_isPrefix
            (isPrefix_objectFragment _ _)
      | _ => cases hstep

/-- Whether a schema has all nodes on the way along some steps. -/
def EmittedAlong (kind : SchemaKind) (node : FieldNode) (p : List Step) : Prop :=
  ∀ q ∈ p.inits, ∀ next ∈ node.find? q, kind.omits next.definition? = false

theorem exists_fragment? (hkept : kind.omits node.definition? = false) (depth : Nat) :
    ∃ fragment, fragment? kind depth node = some fragment := by
  rw [← Option.isSome_iff_exists, isSome_fragment?, hkept, Bool.not_false]

theorem occursIn_of_find? {p : List Step} {target : FieldNode} (hfind : node.find? p = some target)
    (hemitted : EmittedAlong kind node p) {outer : Fragment} (houter : fragment? kind depth node = some outer) :
    ∃ inner, fragment? kind (depth + p.countP (!·.isElement)) target = some inner ∧
      OccursIn inner.expression outer.expression := by
  induction p generalizing node depth outer with
  | nil =>
      cases hfind
      exact ⟨outer, houter, occursIn_self _⟩
  | cons step p ih =>
      obtain ⟨next, hstep, hrest⟩ := Option.bind_eq_some_iff.mp hfind
      have hnext : EmittedAlong kind next p := by
        intro q hq last hlast
        refine hemitted (step :: q) ?_ last ?_
        · exact (List.mem_inits _ _).mpr (List.cons_prefix_cons.mpr ⟨rfl, (List.mem_inits _ _).mp hq⟩)
        · rw [Option.mem_def, find?_cons, hstep, Option.bind_some, hlast]
      have hkept : kind.omits next.definition? = false := hnext [] ((List.mem_inits _ _).mpr List.nil_prefix) next rfl
      obtain ⟨middle, hmiddle⟩ := exists_fragment? hkept (depth + stepDepth step)
      obtain ⟨inner, hinner, hoccurs⟩ := ih hrest hnext hmiddle
      refine ⟨inner, ?_, hoccurs.trans (occursIn_step hstep houter hmiddle)⟩
      rwa [List.countP_cons, Nat.add_comm (p.countP _), ← Nat.add_assoc, ← stepDepth_eq]

theorem Record.ascending_of_find? (h : node.Record) {p : List Step} {definition : Option FieldDefinition}
    (hfind : node.find? p = some (branch definition children)) : Text.Ascending children := by
  cases p with
  | nil =>
      obtain ⟨others, rfl, hascending, -⟩ := h
      cases hfind
      exact hascending
  | cons step p => exact (h.of_find? (List.cons_ne_nil _ _) hfind).ascending_children

end FieldNode

namespace FieldTree

open FieldNode

variable {tree : FieldTree}

theorem Sound.fragment?_root (h : tree.Sound) (kind : SchemaKind) :
    ∃ fragment, fragment? kind 0 tree.root = some fragment ∧
      ∀ strict, tree.schemaExpression kind strict =
        if strict then fragment.expression else Zod.passthrough fragment.expression := by
  obtain ⟨children, hroot, -⟩ := h.record
  have hkept : kind.omits none = false := by
    cases kind <;> rfl
  refine ⟨{ expression := Zod.object 0 (properties kind 1 children), optional := false }, ?_, ?_⟩
  · rw [hroot, fragment?, hkept]
    rfl
  · intro strict
    rw [schemaExpression, hroot]
    rfl

/-- What a declaration assigns is solid. Each object that the schema has occurs in it as an object expression, and
what stands between its braces falls into one entry per child that the schema has, in the order of the names. -/
theorem declaration_lexes (table : Text) (history : List FieldDefinition) (kind : SchemaKind) (strict : Bool) :
    (grown table history).declaration kind strict =
        "const " ++ kind.schemaName table ++ " = " ++ (grown table history).schemaExpression kind strict ∧
      Solid ((grown table history).schemaExpression kind strict) ∧
      ∀ {p : List Step} {definition : Option FieldDefinition} {children : List (Text × FieldNode)},
        (grown table history).root.find? p = some (.branch definition children) →
        EmittedAlong kind (grown table history).root p →
        ∃ inside last : Text,
          OccursIn ("z.object(\x7b" ++ inside ++ "\x7d)") ((grown table history).schemaExpression kind strict) ∧
          (∀ c ∈ last, Text.isBlank c = true) ∧
          outside.read? inside = some
            ((entries kind (p.countP (!·.isElement) + 1) children).map
              (Zod.entryText (p.countP (!·.isElement) + 1)) ++ [last], outside) ∧
          (entries kind (p.countP (!·.isElement) + 1) children).map (·.1) =
            (children.filter fun child => !kind.omits child.2.definition?).map (·.1) ∧
          Text.Ascending children := by
  have h := sound_grown table history
  have htable := table_grown table history
  obtain ⟨top, htop, hbody⟩ := h.fragment?_root kind
  have hsolid : Solid top.expression := solid_fragment? kind 0 _ top htop
  refine ⟨?_, ?_, ?_⟩
  · unfold declaration
    rw [htable]
  · rw [hbody]
    split
    · exact hsolid
    · exact Zod.solid_passthrough hsolid
  · intro p definition children hfind hemitted
    obtain ⟨inner, hinner, hoccurs⟩ := occursIn_of_find? hfind hemitted htop
    have hentries := solid_entries kind (p.countP (!·.isElement) + 1) children
    rw [Nat.zero_add, fragment?_branch] at hinner
    obtain ⟨-, hinner⟩ := Option.ite_none_left_eq_some.mp hinner
    cases hinner
    refine ⟨_, _, ?_, fun c => Zod.isBlank_of_mem_lastBlank, Zod.read?_interior hentries,
      map_fst_entries kind _ children, h.record.ascending_of_find? hfind⟩
    rw [← Zod.object_eq]
    have hobject := ((occursIn_self _).of_isPrefix (isPrefix_objectFragment definition _)).trans hoccurs
    rw [hbody]
    split
    · exact hobject
    · exact hobject.of_isPrefix (List.prefix_append _ _)

/-- An object with a default that looks like the end of its declaration. -/
theorem declaration_lexes_with_brackets_in_default :
    (grown "t" [{ name := "a.c" }, { name := "a.b", defaultValue := some "'\"\x7d) /*'" }]).root.find? [.field "a"] =
        some (.branch none [("b", .leaf { name := "a.b", defaultValue := some "'\"\x7d) /*'" }),
          ("c", .leaf { name := "a.c" })]) ∧
      EmittedAlong .input
        (grown "t" [{ name := "a.c" }, { name := "a.b", defaultValue := some "'\"\x7d) /*'" }]).root [.field "a"] ∧
      ∃ inside : Text,
        OccursIn ("z.object(\x7b" ++ inside ++ "\x7d)")
          ((grown "t" [{ name := "a.c" }, { name := "a.b", defaultValue := some "'\"\x7d) /*'" }]).schemaExpression
            .input true) ∧
        (outside.read? inside).map (·.1.length) = some 3 := by
  have hfind : (grown "t" [{ name := "a.c" }, { name := "a.b", defaultValue := some "'\"\x7d) /*'" }]).root.find?
      [.field "a"] = some (.branch none [("b", .leaf { name := "a.b", defaultValue := some "'\"\x7d) /*'" }),
        ("c", .leaf { name := "a.c" })]) := rfl
  have hemitted : EmittedAlong .input
      (grown "t" [{ name := "a.c" }, { name := "a.b", defaultValue := some "'\"\x7d) /*'" }]).root [.field "a"] := by
    unfold EmittedAlong
    decide +kernel
  obtain ⟨inside, last, hoccurs, -, hread, -⟩ := (declaration_lexes _ _ .input true).2.2 hfind hemitted
  refine ⟨hfind, hemitted, inside, hoccurs, ?_⟩
  rw [hread, Option.map_some]
  rfl

end FieldTree

end SurrealZod
