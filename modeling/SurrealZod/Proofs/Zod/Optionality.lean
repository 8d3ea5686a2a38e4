import SurrealZod.Proofs.Zod.Clauses

/-! Where an expression says that it may be left out. No type, object or list ends in the call for it, however
options, unions and arrays are nested in a type: inside of an array the call stands in front of a closing bracket. The
constraints of a definition write at most one such call, behind everything else, and a default takes its place. -/

namespace SurrealZod

open Lexical

namespace Lexical.State

theorem after?_singleton (state : State) (c : Char) : state.after? [c] = state.next? c := by
  rw [after?, read?]
  split
  · rename_i hcomma
    rw [hcomma.1, hcomma.2]
    rfl
  · cases state.next? c <;> rfl

theorem next?_opening_ne_outside (state : State) (bracket : Bracket) : state.next? bracket.opening ≠ some outside := by
  obtain ⟨mode, opened⟩ := state
  cases mode <;> cases bracket <;> simp [next?, opens, outside, Bracket.opening]

end Lexical.State

/-- A solid text leaves no bracket open at its end. -/
theorem Lexical.Solid.getLast?_ne {t : Text} (h : Solid t) (bracket : Bracket) :
    t.getLast? ≠ some bracket.opening := by
  intro hlast
  obtain ⟨front, rfl⟩ := List.getLast?_eq_some_iff.mp hlast
  have hafter : State.outside.after? (front ++ [bracket.opening]) = some State.outside := h.wellFormed
  rw [State.after?_append] at hafter
  obtain ⟨state, -, hnext⟩ := Option.bind_eq_some_iff.mp hafter
  rw [State.after?_singleton] at hnext
  exact state.next?_opening_ne_outside bracket hnext

namespace Zod

/-- Whether an expression ends in the call that makes it optional. -/
def EndsOptional (expression : Text) : Prop := (".optional()" : Text) <:+ expression

instance (expression : Text) : Decidable (EndsOptional expression) := inferInstanceAs (Decidable (_ <:+ _))

variable {expression : Text}

/-- Two texts that end the same one end alike, as far as the shorter one goes. -/
theorem not_endsOptional_of_isSuffix {last : Text} (hlast : last <:+ expression)
    (hapart : ¬EndsOptional last ∧ ¬last <:+ (".optional()" : Text)) : ¬EndsOptional expression := fun h =>
  (List.suffix_or_suffix_of_suffix h hlast).elim hapart.1 hapart.2

/-- A call with an argument does not end like one without. -/
theorem not_isSuffix_call {argument : Text} (h : Solid argument) (hne : argument ≠ []) (before : Text) :
    ¬['(', ')'] <:+ before ++ argument ++ [')'] := by
  intro hsuffix
  -- The last character of the argument would be the bracket that opens the call.
  obtain ⟨front, c, rfl⟩ := (List.eq_nil_or_concat' argument).resolve_left hne
  have hclosed : ['('] ++ [')'] <:+ before ++ (front ++ [c]) ++ [')'] := hsuffix
  have hopened : [] ++ ['('] <:+ before ++ front ++ [c] := by
    rw [List.append_assoc before front]
    exact ((List.suffix_append_inj_of_length_eq rfl).mp hclosed).1
  have hlength : ['('].length = [c].length := rfl
  obtain rfl : '(' = c := List.singleton_inj.mp ((List.suffix_append_inj_of_length_eq hlength).mp hopened).2
  exact h.getLast?_ne .round List.getLast?_concat

theorem not_endsOptional_call {before argument : Text} (h : Solid argument)
    (hempty : ¬EndsOptional (before ++ ")")) : ¬EndsOptional (before ++ argument ++ ")") := by
  by_cases hne : argument = []
  · rwa [hne, List.append_nil]
  · intro hends
    have hcall : ['(', ')'] <:+ (".optional()" : Text) := by decide
    exact not_isSuffix_call h hne before (hcall.trans hends)

theorem not_endsOptional_array (h : Solid expression) : ¬EndsOptional (array expression) :=
  not_endsOptional_call h (by decide)

theorem not_endsOptional_enum (values : List Text) : ¬EndsOptional (enum values) :=
  not_endsOptional_of_isSuffix (List.suffix_append _ ("])" : Text)) (by decide)

theorem not_endsOptional_union (expressions : List Text) : ¬EndsOptional (union expressions) :=
  not_endsOptional_of_isSuffix (List.suffix_append _ ("])" : Text)) (by decide)

theorem isSuffix_quoted_call (before t : Text) : ("\")" : Text) <:+ before ++ Text.quoted t ++ ")" :=
  ⟨before ++ '"' :: t.flatMap Text.escapeChar, by simp [Text.quoted]⟩

theorem not_endsOptional_recordId (tables : List Text) : ¬EndsOptional (recordId tables) := by
  match tables with
  | [] => decide
  | [table] => exact not_endsOptional_of_isSuffix (isSuffix_quoted_call "recordId(" table) (by decide)
  | first :: second :: rest => exact not_endsOptional_of_isSuffix (List.suffix_append _ ("])" : Text)) (by decide)

theorem not_endsOptional_describe (h : ¬EndsOptional expression) (notes : List Text) :
    ¬EndsOptional (describe expression notes) := by
  rw [describe]
  split
  · exact h
  · exact not_endsOptional_of_isSuffix (isSuffix_quoted_call _ _) (by decide)

theorem not_endsOptional_withDefault (expression : Text) {literal : Text} (h : Solid literal) :
    ¬EndsOptional (withDefault expression literal) := by
  apply not_endsOptional_call h
  rw [List.append_assoc]
  exact not_endsOptional_of_isSuffix (List.suffix_append _ _) (by decide)

/-- Whether an expression ends in a default. -/
def EndsInDefault (literal expression : Text) : Prop := (".default(" ++ literal ++ ")" : Text) <:+ expression

theorem not_endsInDefault_optional (expression : Text) {literal : Text} (h : Solid literal) :
    ¬EndsInDefault literal (optional expression) := by
  intro hends
  have hoptional : (".optional()" : Text) <:+ optional expression := List.suffix_append _ _
  by_cases hne : literal = []
  · rw [hne] at hends
    exact absurd (List.suffix_or_suffix_of_suffix hends hoptional) (by decide)
  · have hcall : ['(', ')'] <:+ optional expression := List.IsSuffix.trans (by decide) hoptional
    refine not_isSuffix_call h hne ".default(" (List.suffix_of_suffix_length_le hcall hends ?_)
    simp

theorem not_endsOptional_object (depth : Nat) (lines : List Text) : ¬EndsOptional (object depth lines) := by
  rw [object]
  split
  · decide
  · exact not_endsOptional_of_isSuffix (List.suffix_append _ ("\x7d)" : Text)) (by decide)

end Zod

/-! ### Types -/

namespace FieldType

/-- No type has an expression that ends as an optional one, whatever is nested in it. -/
theorem not_endsOptional_fragment (type : Text) : ¬Zod.EndsOptional (fragment type).expression := by
  refine fragment_induction (P := fun expression => ¬Zod.EndsOptional expression) (by decide)
    Zod.not_endsOptional_recordId (by decide) ?_ ?_ type
  · exact fun element _ => Zod.not_endsOptional_array (Zod.solid_render (solid_fragment element))
  · exact fun expressions _ => Zod.not_endsOptional_union expressions

end FieldType

/-! ### The constraints of a definition -/

/-- Whether a fragment says once, and at its end, what its definition says of leaving the field out: by a default if
there is one that is a literal, else by the call that makes it optional, and not at all if the field is required. -/
structure Fragment.Settles (fragment : Fragment) (definition : FieldDefinition) : Prop where
  optional_iff : fragment.optional = true ↔
    definition.defaultValue.isSome = true ∨ (FieldType.fragment definition.typeText).optional = true
  required : fragment.optional = false → ¬Zod.EndsOptional fragment.expression
  byDefault : ∀ literal, definition.defaultValue.bind Constraint.defaultLiteral? = some literal →
    ∃ body, fragment.expression = Zod.withDefault body literal ∧ ¬Zod.EndsOptional body ∧
      ¬Zod.EndsOptional fragment.expression
  byCall : fragment.optional = true → definition.defaultValue.bind Constraint.defaultLiteral? = none →
    ∃ body, fragment.expression = Zod.optional body ∧ ¬Zod.EndsOptional body ∧
      ∀ default literal, Constraint.defaultLiteral? default = some literal →
        ¬Zod.EndsInDefault literal fragment.expression

namespace Constraint

theorem not_endsOptional_append_calls {base : Text} (h : ¬Zod.EndsOptional base) (assertion : Option Text) :
    ¬Zod.EndsOptional (base ++ (effect base assertion).calls) := by
  have hall : ∀ entry ∈ refinements, ¬Zod.EndsOptional entry.2 ∧ ¬entry.2 <:+ (".optional()" : Text) := by decide
  rcases calls_effect_cases base assertion with hcalls | ⟨entry, hentry, hcalls⟩
  · rwa [hcalls, List.append_nil]
  · rw [hcalls]
    exact Zod.not_endsOptional_of_isSuffix (List.suffix_append _ _) (hall entry hentry)

theorem finish_eq (body : Text) (default : Option Text) (optional : Bool) : finish body default optional =
    match default.bind defaultLiteral? with
    | some literal => { expression := Zod.withDefault body literal, optional := true }
    | none =>
      { expression := if default.isSome || optional then Zod.optional body else body
        optional := default.isSome || optional } := by
  cases default with
  | none => rfl
  | some text =>
      rw [finish, Option.bind_some]
      cases defaultLiteral? text <;> rfl

theorem settles_finish {body : Text} (h : ¬Zod.EndsOptional body) (definition : FieldDefinition) :
    (finish body definition.defaultValue definition.hasOptionalType).Settles definition := by
  have hflag : (definition.defaultValue.isSome || definition.hasOptionalType) = true ↔
      definition.defaultValue.isSome = true ∨ (FieldType.fragment definition.typeText).optional = true := by
    rw [definition.optional_typeText, Bool.or_eq_true]
  rw [finish_eq]
  cases hliteral : definition.defaultValue.bind defaultLiteral? with
  | some literal =>
      obtain ⟨default, hdefault, hsome⟩ := Option.bind_eq_some_iff.mp hliteral
      refine ⟨iff_of_true rfl (Or.inl (Option.isSome_of_eq_some hdefault)), nofun, ?_, fun _ hnone => ?_⟩
      · rintro other hother
        obtain rfl := Option.some.inj (hliteral.symm.trans hother)
        exact ⟨body, rfl, h, Zod.not_endsOptional_withDefault body (solid_of_defaultLiteral? hsome)⟩
      · exact absurd (hliteral.symm.trans hnone) (Option.some_ne_none literal)
  | none =>
      refine ⟨hflag, fun hrequired => ?_, fun literal hsome => ?_, fun hoptional _ => ⟨body, ?_, h, ?_⟩⟩
      · exact (if_neg (Bool.eq_false_iff.mp hrequired)) ▸ h
      · exact absurd (hliteral.symm.trans hsome) (Option.some_ne_none literal).symm
      · exact if_pos hoptional
      · intro default literal hsome
        dsimp only at hoptional ⊢
        rw [if_pos hoptional]
        exact Zod.not_endsInDefault_optional body (solid_of_defaultLiteral? hsome)

end Constraint

theorem settles_constrain {base : Text} (h : ¬Zod.EndsOptional base) (definition : FieldDefinition) :
    (constrain base definition definition.hasOptionalType).Settles definition :=
  Constraint.settles_finish
    (Zod.not_endsOptional_describe (Constraint.not_endsOptional_append_calls h definition.assert) _) definition

namespace FieldDefinition

theorem not_endsOptional_leafBase (definition : FieldDefinition) : ¬Zod.EndsOptional definition.leafBase := by
  unfold leafBase
  split
  · split
    · exact Zod.not_endsOptional_array (Zod.solid_enum _)
    · exact Zod.not_endsOptional_enum _
  · exact FieldType.not_endsOptional_fragment _

theorem settles_leafFragment (definition : FieldDefinition) : definition.leafFragment.Settles definition := by
  rw [leafFragment_eq, optional_typeText]
  exact settles_constrain definition.not_endsOptional_leafBase definition

end FieldDefinition

namespace FieldNode

theorem not_endsOptional_baseExpression (kind : SchemaKind) (depth : Nat) (definition : FieldDefinition)
    (node : FieldNode) : ¬Zod.EndsOptional (node.baseExpression kind depth definition) := by
  cases node with
  | leaf own => exact definition.not_endsOptional_leafBase
  | branch own children => exact Zod.not_endsOptional_object _ _
  | list own element =>
      rw [baseExpression]
      cases hfragment : element.bind (fragment? kind depth) with
      | some fragment =>
          obtain ⟨next, -, hnext⟩ := Option.bind_eq_some_iff.mp hfragment
          exact Zod.not_endsOptional_array (solid_fragment? kind depth next fragment hnext)
      | none =>
          dsimp only
          split
          · exact definition.not_endsOptional_leafBase
          · decide

theorem settles_fragment? {kind : SchemaKind} {depth : Nat} {node : FieldNode} {definition : FieldDefinition}
    {fragment : Fragment} (hdefinition : node.definition? = some definition)
    (hfragment : fragment? kind depth node = some fragment) : fragment.Settles definition := by
  rw [fragment?_eq_constrain hdefinition] at hfragment
  obtain ⟨-, hconstrain⟩ := Option.ite_none_left_eq_some.mp hfragment
  rw [← Option.some.inj hconstrain]
  exact settles_constrain (not_endsOptional_baseExpression kind depth definition node) definition

end FieldNode

namespace FieldTree

open FieldNode

/-- A scalar may be left out if it has a default or an optional type, and its expression says so once, at the end. No
type has an expression that says it by itself. It is the same with every node of a table that a schema has, of which
each has its expression in that of the schema. -/
theorem optionality_written_once (definition : FieldDefinition) :
    definition.leafFragment.Settles definition ∧
      (∀ type, ¬Zod.EndsOptional (FieldType.fragment type).expression) ∧
      ∀ (table : Text) (history : List FieldDefinition) (kind : SchemaKind) (strict : Bool) {p : List Step}
        {node : FieldNode}, (grown table history).root.find? p = some node →
        EmittedAlong kind (grown table history).root p → node.definition? = some definition →
        ∃ fragment, fragment? kind (p.countP (!·.isElement)) node = some fragment ∧
          OccursIn fragment.expression ((grown table history).schemaExpression kind strict) ∧
          fragment.Settles definition := by
  refine ⟨definition.settles_leafFragment, FieldType.not_endsOptional_fragment, ?_⟩
  intro table history kind strict p node hfind hemitted hdefinition
  obtain ⟨top, htop, hbody⟩ := (sound_grown table history).fragment?_root kind
  obtain ⟨fragment, hfragment, hoccurs⟩ := occursIn_of_find? hfind hemitted htop
  rw [Nat.zero_add] at hfragment
  refine ⟨fragment, hfragment, ?_, settles_fragment? hdefinition hfragment⟩
  rw [hbody]
  split
  · exact hoccurs
  · exact hoccurs.of_isPrefix (List.prefix_append _ _)

/-- An optional list of optional numbers, the elements of which are declared. -/
theorem optionality_written_once_of_list :
    let numbers : FieldDefinition := { name := "a", fieldType := some "option<array<int | none>>" }
    let number : FieldDefinition := { name := "a.*", fieldType := some "option<int>" }
    let tree := grown "t" [numbers, number]
    tree.root.find? [.field "a"] = some (.list (some numbers) (some (.leaf number))) ∧
      EmittedAlong .output tree.root [.field "a"] ∧
      ∃ fragment : Fragment, fragment.expression = "z.array(z.number().optional()).optional()" ∧
        OccursIn fragment.expression (tree.schemaExpression .output true) ∧ fragment.Settles numbers := by
  intro numbers number tree
  have hfind : tree.root.find? [.field "a"] = some (.list (some numbers) (some (.leaf number))) := by
    subst tree numbers number
    rfl
  have hemitted : EmittedAlong .output tree.root [.field "a"] := by
    unfold EmittedAlong
    decide +kernel
  obtain ⟨fragment, hfragment, hoccurs, hsettles⟩ :=
    (optionality_written_once numbers).2.2 "t" [numbers, number] .output true hfind hemitted rfl
  have hexpression : (fragment? .output ([Step.field "a"].countP (!·.isElement))
      (.list (some numbers) (some (.leaf number)))).map (·.expression) =
      some "z.array(z.number().optional()).optional()" := by decide +kernel
  rw [hfragment] at hexpression
  exact ⟨hfind, hemitted, fragment, Option.some.inj hexpression, hoccurs, hsettles⟩

end FieldTree

end SurrealZod
