import SurrealZod.Proofs.Zod.Levels

/-! What becomes of the assertions and lists of allowed values of a table. Each node that a schema has is a base
expression under the constraints of its definition. An assertion always stays visible, as a refinement or as a note,
and so does a list that does not hold strings only. A list of strings takes the place of the type where the node
is described by its own type, and is lost where its children or elements describe it. -/

namespace SurrealZod

open Lexical

namespace Zod

/-- Whether an expression has a call, outside of literals and brackets. -/
def HasCall (call expression : Text) : Prop :=
  ∃ before after, expression = before ++ call ++ after ∧ Solid before

/-- Whether an expression has a note among those that it is described by. -/
def HasNote (note expression : Text) : Prop :=
  ∃ notes : List Text, note ∈ notes ∧
    HasCall (".describe(" ++ Text.quoted (Text.join [';', ' '] notes) ++ ")") expression

variable {call note expression longer : Text}

theorem HasCall.of_isPrefix (h : HasCall call expression) (hlonger : expression <+: longer) : HasCall call longer := by
  obtain ⟨before, after, rfl, hbefore⟩ := h
  obtain ⟨rest, rfl⟩ := hlonger
  exact ⟨before, after ++ rest, List.append_assoc _ _ _, hbefore⟩

theorem HasNote.of_isPrefix (h : HasNote note expression) (hlonger : expression <+: longer) : HasNote note longer := by
  obtain ⟨notes, hnote, hcall⟩ := h
  exact ⟨notes, hnote, hcall.of_isPrefix hlonger⟩

theorem hasNote_describe {notes : List Text} (hbase : Solid expression) (h : note ∈ notes) :
    HasNote note (describe expression notes) := by
  refine ⟨notes, h, expression, [], ?_, hbase⟩
  rw [describe, if_neg (List.ne_nil_of_mem h), List.append_nil]
  simp only [List.append_assoc]

end Zod

/-! ### The constraints of one definition -/

section Constrain

open Constraint

variable {base assertion inside : Text} {definition : FieldDefinition}

/-- An assertion is a refinement or a note, unless it says nothing. -/
theorem effect_cases (base : Text) (hne : assertion ≠ []) (hvalue : assertion ≠ "$value") :
    (∃ call, refinement? assertion = some call ∧ effect base (some assertion) = .refine call) ∨
      effect base (some assertion) = .note ("assert: " ++ assertion) := by
  obtain ⟨c, rest, rfl⟩ := List.exists_cons_of_ne_nil hne
  cases hcall : refinement? (c :: rest) with
  | none =>
      right
      simp only [effect, hcall, if_neg hvalue]
  | some call =>
      by_cases hstring : Zod.string <+: base
      · left
        exact ⟨call, rfl, by simp only [effect, hcall, if_pos hstring]⟩
      · right
        simp only [effect, hcall, if_neg hstring]

theorem hasNote_constrain {note : Text} (hbase : Solid base) (optional : Bool)
    (h : note ∈ (effect base definition.assert).notes ++ insideNotes definition.inside) :
    Zod.HasNote note (constrain base definition optional).expression :=
  (Zod.hasNote_describe (hbase.append (solid_calls_effect base _)) h).of_isPrefix (isPrefix_finish _ _ _)

theorem constrain_assert (hbase : Solid base) (optional : Bool) (h : definition.assert = some assertion)
    (hne : assertion ≠ []) (hvalue : assertion ≠ "$value") :
    (∃ call, refinement? assertion = some call ∧ Zod.HasCall call (constrain base definition optional).expression) ∨
      Zod.HasNote ("assert: " ++ assertion) (constrain base definition optional).expression := by
  rcases effect_cases base hne hvalue with ⟨call, hcall, heffect⟩ | heffect
  · have hprefix : base ++ call <+: (constrain base definition optional).expression := by
      refine List.IsPrefix.trans ?_ (isPrefix_finish _ _ _)
      rw [h, heffect]
      exact Zod.isPrefix_describe _ _
    have hself : Zod.HasCall call (base ++ call) := ⟨base, [], (List.append_nil _).symm, hbase⟩
    exact Or.inl ⟨call, hcall, hself.of_isPrefix hprefix⟩
  · refine Or.inr (hasNote_constrain hbase optional (List.mem_append_left _ ?_))
    rw [h, heffect]
    exact List.mem_singleton_self _

theorem constrain_inside (hbase : Solid base) (optional : Bool) (h : definition.inside = some inside)
    (hvalues : enumValues? inside = none) :
    Zod.HasNote ("inside: " ++ inside) (constrain base definition optional).expression := by
  refine hasNote_constrain hbase optional (List.mem_append_right _ ?_)
  rw [h, insideNotes, hvalues]
  exact List.mem_singleton_self _

/-- A list of strings leaves nothing in the constraints. -/
theorem constrain_without_inside (base : Text) (optional : Bool) (h : definition.inside = some inside)
    (hvalues : (enumValues? inside).isSome) :
    constrain base { definition with inside := none } optional = constrain base definition optional := by
  have hnotes : insideNotes definition.inside = [] := by rw [h, insideNotes, if_pos hvalues]
  simp only [constrain, hnotes]
  rfl

theorem FieldDefinition.optional_typeText (definition : FieldDefinition) :
    (FieldType.fragment definition.typeText).optional = definition.hasOptionalType := by
  unfold typeText hasOptionalType
  cases definition.fieldType with
  | none => decide +kernel
  | some type => rfl

end Constrain

/-! ### The fragment of a node -/

namespace FieldNode

variable {kind : SchemaKind} {depth : Nat} {node : FieldNode} {definition : FieldDefinition}

/-- The expression that the clauses of a node's definition constrain. -/
def baseExpression (kind : SchemaKind) (depth : Nat) (definition : FieldDefinition) : FieldNode → Text
  | leaf _ => definition.leafBase
  | branch _ children => Zod.object depth (properties kind (depth + 1) children)
  | list _ element =>
    match element.bind (fragment? kind depth) with
    | some fragment => Zod.array fragment.expression
    | none => if definition.fieldType.any FieldType.isArray then definition.leafBase else Zod.array Zod.any

/-- Whether a node is described by its own type: a scalar is, and an array whose elements are not described. -/
def IsTyped (kind : SchemaKind) : FieldNode → Prop
  | leaf _ => True
  | branch _ _ => False
  | list definition element =>
    (∀ node ∈ element, kind.omits node.definition? = true) ∧ ∃ own ∈ definition, own.fieldType.any FieldType.isArray

/-- The node with another definition. -/
def withDefinition (definition : FieldDefinition) : FieldNode → FieldNode
  | leaf _ => leaf definition
  | branch _ children => branch (some definition) children
  | list _ element => list (some definition) element

theorem fragment?_eq_constrain (h : node.definition? = some definition) : fragment? kind depth node =
    if kind.omits (some definition) then none
    else some (constrain (node.baseExpression kind depth definition) definition definition.hasOptionalType) := by
  cases node with
  | leaf own =>
      cases h
      rw [fragment?, FieldDefinition.leafFragment_eq, FieldDefinition.optional_typeText]
      rfl
  | branch own children =>
      have hown : own = some definition := h
      subst hown
      rw [fragment?]
      rfl
  | list own element =>
      have hown : own = some definition := h
      subst hown
      rw [fragment?_list, baseExpression]
      cases element.bind (fragment? kind depth) with
      | some fragment => rfl
      | none =>
          have hany : (definition.fieldType.map FieldType.isArray).getD false =
              definition.fieldType.any FieldType.isArray := by cases definition.fieldType <;> rfl
          rw [Option.map_none, listFragment, hany, FieldDefinition.leafFragment_eq, FieldDefinition.optional_typeText]
          dsimp only
          by_cases harray : definition.fieldType.any FieldType.isArray = true
          · rw [if_pos harray, if_pos harray]
          · rw [if_neg harray, if_neg harray]

theorem solid_baseExpression (kind : SchemaKind) (depth : Nat) (definition : FieldDefinition) (node : FieldNode) :
    Solid (node.baseExpression kind depth definition) := by
  cases node with
  | leaf own => exact definition.solid_leafBase
  | branch own children =>
      rw [baseExpression, properties_eq]
      exact Zod.solid_object (solid_entries kind (depth + 1) children)
  | list own element =>
      rw [baseExpression]
      cases hfragment : element.bind (fragment? kind depth) with
      | some fragment =>
          obtain ⟨next, -, hnext⟩ := Option.bind_eq_some_iff.mp hfragment
          exact Zod.solid_array (solid_fragment? kind depth next fragment hnext)
      | none =>
          dsimp only
          split
          · exact definition.solid_leafBase
          · decide

theorem isTyped_list_iff (own : Option FieldDefinition) (element : Option FieldNode) (depth : Nat) :
    IsTyped kind (list own element) ↔ element.bind (fragment? kind depth) = none ∧
      ∃ definition ∈ own, definition.fieldType.any FieldType.isArray := by
  have homitted : (∀ node ∈ element, kind.omits node.definition? = true) ↔
      element.bind (fragment? kind depth) = none := by
    cases element with
    | none => simp
    | some next =>
        have hsome := isSome_fragment? kind depth next
        rw [Option.bind_some, ← Option.isNone_iff_eq_none, ← Option.not_isSome, hsome, Bool.not_not]
        simp
  rw [IsTyped, homitted]

theorem IsTyped.baseExpression_eq (h : IsTyped kind node) (hdefinition : node.definition? = some definition) :
    node.baseExpression kind depth definition = definition.leafBase := by
  cases node with
  | leaf own => rfl
  | branch own children => exact h.elim
  | list own element =>
      obtain ⟨hnone, own, hown, harray⟩ := (isTyped_list_iff own element depth).mp h
      have hsame : own = definition := Option.some_inj.mp (hown.symm.trans hdefinition)
      rw [baseExpression, hnone]
      exact if_pos (hsame ▸ harray)

/-- Where a node is not described by its own type, its base expression does not depend on what it allows. -/
theorem baseExpression_without_inside (h : ¬IsTyped kind node) (hdefinition : node.definition? = some definition) :
    node.baseExpression kind depth { definition with inside := none } = node.baseExpression kind depth definition := by
  cases node with
  | leaf own => exact absurd trivial h
  | branch own children => rfl
  | list own element =>
      rw [baseExpression, baseExpression]
      cases hfragment : element.bind (fragment? kind depth) with
      | some fragment => rfl
      | none =>
          have harray : ¬definition.fieldType.any FieldType.isArray = true := fun harray =>
            h ((isTyped_list_iff own element depth).mpr ⟨hfragment, definition, hdefinition, harray⟩)
          exact (if_neg harray).trans (if_neg harray).symm

theorem isPrefix_of_isTyped {values : List Text} {inside : Text} (h : IsTyped kind node)
    (hdefinition : node.definition? = some definition) (hinside : definition.inside = some inside)
    (hvalues : Constraint.enumValues? inside = some values) (optional : Bool) :
    (if FieldType.isArray definition.typeText then Zod.array (Zod.enum values) else Zod.enum values) <+:
      (constrain (node.baseExpression kind depth definition) definition optional).expression := by
  have hleaf : definition.leafBase =
      if FieldType.isArray definition.typeText then Zod.array (Zod.enum values) else Zod.enum values := by
    rw [FieldDefinition.leafBase, hinside, Option.bind_some, hvalues]
  rw [h.baseExpression_eq hdefinition, ← hleaf]
  exact isPrefix_constrain _ _ _

theorem definition?_withDefinition (node : FieldNode) (definition : FieldDefinition) :
    (node.withDefinition definition).definition? = some definition := by cases node <;> rfl

theorem baseExpression_withDefinition (node : FieldNode) (own : FieldDefinition) :
    (node.withDefinition own).baseExpression kind depth definition = node.baseExpression kind depth definition := by
  cases node <;> rfl

/-- A list of strings leaves no trace in a node that is not described by its own type. -/
theorem fragment?_without_inside {inside : Text} (h : ¬IsTyped kind node)
    (hdefinition : node.definition? = some definition) (hinside : definition.inside = some inside)
    (hvalues : (Constraint.enumValues? inside).isSome) :
    fragment? kind depth (node.withDefinition { definition with inside := none }) = fragment? kind depth node := by
  rw [fragment?_eq_constrain (definition?_withDefinition _ _), fragment?_eq_constrain hdefinition,
    baseExpression_withDefinition, baseExpression_without_inside h hdefinition,
    constrain_without_inside _ _ hinside hvalues]
  rfl

end FieldNode

namespace FieldTree

open FieldNode Constraint

/-- The assertion and the list of allowed values of each node that a schema has. The assertion is a refinement or a
note. The list is a note unless it holds strings only. A list of strings takes the place of the type of a node that is
described by its own type; any other node is as if it had no list. -/
theorem clauses_of_emitted (table : Text) (history : List FieldDefinition) (kind : SchemaKind) (strict : Bool)
    {p : List Step} {node : FieldNode} {definition : FieldDefinition}
    (hfind : (grown table history).root.find? p = some node) (hemitted : EmittedAlong kind (grown table history).root p)
    (hdefinition : node.definition? = some definition) :
    ∃ fragment, fragment? kind (p.countP (!·.isElement)) node = some fragment ∧
      OccursIn fragment.expression ((grown table history).schemaExpression kind strict) ∧
      (∀ assertion, definition.assert = some assertion → assertion ≠ [] → assertion ≠ "$value" →
        (∃ call, refinement? assertion = some call ∧ Zod.HasCall call fragment.expression) ∨
          Zod.HasNote ("assert: " ++ assertion) fragment.expression) ∧
      (∀ inside, definition.inside = some inside → enumValues? inside = none →
        Zod.HasNote ("inside: " ++ inside) fragment.expression) ∧
      ∀ inside values, definition.inside = some inside → enumValues? inside = some values →
        (IsTyped kind node → (if FieldType.isArray definition.typeText then Zod.array (Zod.enum values)
          else Zod.enum values) <+: fragment.expression) ∧
        (¬IsTyped kind node → fragment? kind (p.countP (!·.isElement))
          (node.withDefinition { definition with inside := none }) = some fragment) := by
  obtain ⟨top, htop, hbody⟩ := (sound_grown table history).fragment?_root kind
  obtain ⟨fragment, hfragment, hoccurs⟩ := occursIn_of_find? hfind hemitted htop
  rw [Nat.zero_add] at hfragment
  have hconstrain := hfragment
  rw [fragment?_eq_constrain hdefinition] at hconstrain
  obtain ⟨-, hconstrain⟩ := Option.ite_none_left_eq_some.mp hconstrain
  have hsolid := solid_baseExpression kind (p.countP (!·.isElement)) definition node
  have hexpression := Option.some_inj.mp hconstrain
  refine ⟨fragment, hfragment, ?_, ?_, ?_, ?_⟩
  · rw [hbody]
    split
    · exact hoccurs
    · exact hoccurs.of_isPrefix (List.prefix_append _ _)
  · intro assertion hassert hne hvalue
    rw [← hexpression]
    exact constrain_assert hsolid _ hassert hne hvalue
  · intro inside hinside hvalues
    rw [← hexpression]
    exact constrain_inside hsolid _ hinside hvalues
  · intro inside values hinside hvalues
    constructor
    · intro htyped
      rw [← hexpression]
      exact isPrefix_of_isTyped htyped hdefinition hinside hvalues _
    · intro htyped
      rw [fragment?_without_inside htyped hdefinition hinside (by rw [hvalues]; rfl), hfragment]

theorem clauses_of_emitted_scalar :
    let role : FieldDefinition :=
      { name := "role", fieldType := some "string", assert := some "$value != 'c'", inside := some "['a', 'b']" }
    (grown "t" [role]).root.find? [.field "role"] = some (.leaf role) ∧
      EmittedAlong .input (grown "t" [role]).root [.field "role"] ∧
      ∃ fragment, fragment? .input 1 (.leaf role) = some fragment ∧
        OccursIn fragment.expression ((grown "t" [role]).schemaExpression .input true) ∧
        Zod.HasNote "assert: $value != 'c'" fragment.expression ∧ Zod.enum ["a", "b"] <+: fragment.expression := by
  intro role
  have hfind : (grown "t" [role]).root.find? [.field "role"] = some (.leaf role) := rfl
  have hemitted : EmittedAlong .input (grown "t" [role]).root [.field "role"] := by
    unfold EmittedAlong
    decide +kernel
  obtain ⟨fragment, hfragment, hoccurs, hassert, -, hvalues⟩ :=
    clauses_of_emitted "t" [role] .input true hfind hemitted rfl
  refine ⟨hfind, hemitted, fragment, hfragment, hoccurs, ?_, (hvalues _ ["a", "b"] rfl (by decide)).1 trivial⟩
  have hopaque : refinement? "$value != 'c'" = none := by decide
  refine (hassert _ rfl (by decide) (by decide)).resolve_left ?_
  rintro ⟨call, hcall, -⟩
  exact Option.some_ne_none call (hcall.symm.trans hopaque)

/-- An array whose elements are declared as well takes any string, whatever it lists. -/
theorem inside_lost_to_declared_elements :
    let tags : FieldDefinition :=
      { name := "tags", table := "t", fieldType := some "array<string>", inside := some "['a', 'b']" }
    let element : FieldDefinition := { name := "tags.*", table := "t", fieldType := some "string" }
    (grown "t" [tags, element]).root.find? [.field "tags"] = some (.list (some tags) (some (.leaf element))) ∧
      EmittedAlong .output (grown "t" [tags, element]).root [.field "tags"] ∧
      enumValues? "['a', 'b']" = some (["a", "b"] : List Text) ∧
      (grown "t" [tags, element]).schemaExpression .output true =
        "z.object(\x7b\n  tags: z.array(z.string()),\n\x7d)" ∧
      ¬Zod.enum ["a", "b"] <:+: (grown "t" [tags, element]).schemaExpression .output true := by
  have hexpression : (grown "t"
      [{ name := "tags", table := "t", fieldType := some "array<string>", inside := some "['a', 'b']" },
        { name := "tags.*", table := "t", fieldType := some "string" }]).schemaExpression .output true =
      "z.object(\x7b\n  tags: z.array(z.string()),\n\x7d)" := by decide +kernel
  have hbracket : '[' ∈ Zod.enum ["a", "b"] := by decide
  refine ⟨rfl, ?_, by decide, hexpression, ?_⟩
  · unfold EmittedAlong
    decide +kernel
  · rw [hexpression]
    intro henum
    exact absurd (henum.subset hbracket) (by decide)

end FieldTree

end SurrealZod
