import SurrealZod.Proofs.Text.Ascending
import SurrealZod.Proofs.Text.Lexing
import SurrealZod.Zod.Constraint

/-! Expressions as the lexer sees them. Each way to build an expression gives a solid text from solid texts,
and what comes from the schema enters as a string literal, a bare key or a JSON literal. So the expression of
every field type is solid, whatever the type, and stays so under the constraints of a definition. -/

namespace SurrealZod

open Lexical

namespace JsonNumber

/-- The characters of the written form of a number. -/
def isNumeric (c : Char) : Bool := c.isDigit || c = '-' || c = '+' || c = '.' || c = 'e'

def Numeric (t : Text) : Prop := ∀ c ∈ t, isNumeric c = true

instance (t : Text) : Decidable (Numeric t) := List.decidableBAll _ t

theorem Numeric.append {s t : Text} (hs : Numeric s) (ht : Numeric t) : Numeric (s ++ t) :=
  List.forall_mem_append.mpr ⟨hs, ht⟩

theorem Numeric.cons {c : Char} {t : Text} (h : Numeric t) (hc : isNumeric c = true) : Numeric (c :: t) :=
  List.forall_mem_cons.mpr ⟨hc, h⟩

theorem Numeric.of_subset {s t : Text} (h : Numeric t) (hs : s ⊆ t) : Numeric s := fun c hc => h c (hs hc)

theorem Numeric.solid {t : Text} (h : Numeric t) : Solid t := solid_of_forall (by decide) h

theorem numeric_digits (n : Nat) : Numeric (digits n) := by
  intro c hc
  rw [isNumeric, Nat.isDigit_of_mem_toDigits (by decide) (by decide) hc]
  rfl

theorem numeric_integerText (value : Int) : Numeric (integerText value) := by
  unfold integerText
  split
  · exact (numeric_digits _).cons rfl
  · exact numeric_digits _

theorem Numeric.pointText {t : Text} (h : Numeric t) (point : Int) : Numeric (pointText t point) := by
  have hzeros (n : Nat) : Numeric (List.replicate n '0') := by
    intro c hc
    rw [List.eq_of_mem_replicate hc]
    rfl
  have hbefore : Numeric "0." := by decide
  have hbehind : Numeric ".0" := by decide
  unfold JsonNumber.pointText
  split_ifs
  · exact (hbefore.append (hzeros _)).append h
  · exact (h.append (hzeros _)).append hbehind
  · exact (h.of_subset (List.take_subset _ _)).append ((h.of_subset (List.drop_subset _ _)).cons rfl)

theorem Numeric.exponentText {t : Text} (h : Numeric t) (exponent : Int) : Numeric (exponentText t exponent) := by
  have hfraction : Numeric (if t.length ≤ 1 then [] else '.' :: t.drop 1) := by
    split
    · decide
    · exact (h.of_subset (List.drop_subset _ _)).cons rfl
  have hsign : Numeric (if exponent < 0 then "e-" else "e+" : String) := by
    split <;> decide
  exact (((h.of_subset (List.take_subset _ _)).append hfraction).append hsign).append (numeric_digits _)

theorem numeric_magnitudeText (x : Binary64) : Numeric (magnitudeText x) := by
  unfold magnitudeText
  split
  · decide
  · have hsignificant : Numeric ((digits x.shortest.1).reverse.dropWhile (· = '0')).reverse := by
      apply (numeric_digits x.shortest.1).of_subset
      intro c hc
      exact List.mem_reverse.mp ((List.dropWhile_sublist _).subset (List.mem_reverse.mp hc))
    dsimp only
    split
    · exact hsignificant.pointText _
    · exact hsignificant.exponentText _

theorem solid_text (number : JsonNumber) : Solid number.text := by
  apply Numeric.solid
  cases number with
  | integer value => exact numeric_integerText value
  | real negative magnitude =>
      rw [text]
      split
      · exact (numeric_magnitudeText magnitude).cons rfl
      · exact numeric_magnitudeText magnitude

end JsonNumber

namespace JsonValue

mutual

theorem solid_text : (value : JsonValue) → Solid value.text
  | null => by rw [text]; decide
  | boolean true => by rw [text]; decide
  | boolean false => by rw [text]; decide
  | number value => by rw [text]; exact value.solid_text
  | string value => by rw [text]; exact solid_quoted value
  | array items => by
      rw [text]
      have hbrackets : Encloses [.square] ['['] [']'] := by decide
      exact (wellFormed_join (by decide) (solid_itemTexts items)).solid_enclosed hbrackets
  | object members => by
      rw [text]
      have hbrackets : Encloses [.curly] ['{'] ['}'] := by decide
      exact (wellFormed_join (by decide) (solid_memberTexts members)).solid_enclosed hbrackets

theorem solid_itemTexts : (items : List JsonValue) → ∀ part ∈ itemTexts items, Solid part
  | [], part, h => by cases h
  | item :: rest, part, h => by
      rw [itemTexts] at h
      rcases List.mem_cons.mp h with rfl | h
      · exact solid_text item
      · exact solid_itemTexts rest part h

theorem solid_memberTexts : (members : List (Text × JsonValue)) → ∀ part ∈ memberTexts members, Solid part
  | [], part, h => by cases h
  | (key, value) :: rest, part, h => by
      rw [memberTexts] at h
      rcases List.mem_cons.mp h with rfl | h
      · have hcolon : Solid [':'] := rfl
        exact (solid_quoted key).append (hcolon.append (solid_text value))
      · exact solid_memberTexts rest part h

end

end JsonValue

namespace Zod

variable {expression : Text}

theorem solid_propertyKey (name : Text) : Solid (propertyKey name) := by
  cases name with
  | nil => exact solid_quoted []
  | cons c rest =>
      rw [propertyKey]
      split
      · rename_i hbare
        obtain ⟨hstart, hparts⟩ := Bool.and_eq_true_iff.mp hbare
        refine solid_of_forall (p := fun c => isKeyStart c || isKeyPart c) (by decide) ?_
        refine List.forall_mem_cons.mpr ⟨Bool.or_eq_true_iff.mpr (Or.inl hstart), fun d hd => ?_⟩
        exact Bool.or_eq_true_iff.mpr (Or.inr (List.all_eq_true.mp hparts d hd))
      · exact solid_quoted (c :: rest)

theorem wellFormed_literals (values : List Text) : WellFormed (Text.join [',', ' '] (values.map Text.quoted)) := by
  apply wellFormed_join (by decide)
  intro part hpart
  obtain ⟨value, -, rfl⟩ := List.mem_map.mp hpart
  exact solid_quoted value

theorem solid_array (h : Solid expression) : Solid (array expression) :=
  h.wellFormed.solid_enclosed (by decide : Encloses [.round] "z.array(" ")")

theorem solid_union {expressions : List Text} (h : ∀ expression ∈ expressions, Solid expression) :
    Solid (union expressions) :=
  (wellFormed_join (by decide) h).solid_enclosed (by decide : Encloses [.square, .round] "z.union([" "])")

theorem solid_enum (values : List Text) : Solid (enum values) :=
  (wellFormed_literals values).solid_enclosed (by decide : Encloses [.square, .round] "z.enum([" "])")

theorem solid_recordId : (tables : List Text) → Solid (recordId tables)
  | [] => by decide
  | [table] =>
    (solid_quoted table).wellFormed.solid_enclosed (by decide : Encloses [.round] "recordId(" ")")
  | first :: second :: rest =>
    (wellFormed_literals (first :: second :: rest)).solid_enclosed
      (by decide : Encloses [.square, .round] "recordId([" "])")

theorem solid_optional (h : Solid expression) : Solid (optional expression) := h.append (by decide)

theorem solid_withDefault (h : Solid expression) {literal : Text} (hliteral : Solid literal) :
    Solid (withDefault expression literal) := by
  have hcall : Solid (".default(" ++ literal ++ ")") :=
    hliteral.wellFormed.solid_enclosed (by decide : Encloses [.round] ".default(" ")")
  rw [withDefault, List.append_assoc, List.append_assoc, ← List.append_assoc _ literal]
  exact h.append hcall

theorem solid_describe (h : Solid expression) (notes : List Text) : Solid (describe expression notes) := by
  rw [describe]
  split
  · exact h
  · have hcall : Solid (".describe(" ++ Text.quoted (Text.join [';', ' '] notes) ++ ")") :=
      (solid_quoted _).wellFormed.solid_enclosed (by decide : Encloses [.round] ".describe(" ")")
    rw [List.append_assoc, List.append_assoc, ← List.append_assoc _ (Text.quoted _)]
    exact h.append hcall

theorem solid_passthrough (h : Solid expression) : Solid (passthrough expression) := h.append (by decide)

theorem solid_render {fragment : Fragment} (h : Solid fragment.expression) : Solid fragment.render := by
  rw [Fragment.render]
  split
  · exact solid_optional h
  · exact h

end Zod

namespace FieldType

theorem scalarExpression_induction {P : Text → Prop} (hscalar : ∀ entry ∈ scalarExpressions, P entry.2) (name : Text) :
    P (scalarExpression name) := by
  rw [scalarExpression]
  cases hget : Text.get? name scalarExpressions with
  | none => exact hscalar ("any", Zod.any) (by decide)
  | some expression => exact hscalar _ (Text.mem_of_get?_eq_some hget)

theorem unionExpression_induction {P : Text → Prop} (hany : P Zod.any)
    (hunion : ∀ expressions, (∀ expression ∈ expressions, P expression) → P (Zod.union expressions)) :
    (expressions : List Text) → (∀ expression ∈ expressions, P expression) → P (unionExpression expressions)
  | [], _ => hany
  | [expression], h => h expression List.mem_cons_self
  | first :: second :: rest, h => hunion (first :: second :: rest) h

/-- What holds of the expressions of scalars and record ids, and with the expressions of variants and elements also of
that of their union or array, holds of the expression of each type. -/
theorem fragment_induction {P : Text → Prop} (hscalar : ∀ entry ∈ scalarExpressions, P entry.2)
    (hrecord : ∀ tables, P (Zod.recordId tables)) (hbare : P (Zod.array Zod.any))
    (harray : ∀ element, P (fragment element).expression → P (Zod.array (fragment element).render))
    (hunion : ∀ expressions, (∀ expression ∈ expressions, P expression) → P (Zod.union expressions)) (type : Text) :
    P (fragment type).expression := by
  have hany : P Zod.any := hscalar ("any", Zod.any) (by decide)
  have hrecords : ∀ tables, P (recordExpression tables) := by
    intro tables
    rw [recordExpression]
    exact hrecord _
  fun_induction fragment type with
  | case1 type variants hmany mapped ih =>
      apply unionExpression_induction hany hunion
      intro expression hexpression
      obtain ⟨fragment, hfragment, rfl⟩ := List.mem_map.mp hexpression
      obtain ⟨variant, -, rfl⟩ := List.mem_map.mp hfragment
      exact ih variant
  | case6 type variants hone name argument rest harguments hoption ih => exact ih
  | case7 type variants hone name argument rest harguments hoption hname ih => exact harray argument ih
  | case2 => exact hany
  | case3 => exact hbare
  | case4 => exact hrecords none
  | case8 type variants hone name argument => exact hrecords (some argument)
  | case5 => exact scalarExpression_induction hscalar _
  | case9 => exact scalarExpression_induction hscalar _

/-- The expression of a type is solid, whatever the type. -/
theorem solid_fragment (type : Text) : Solid (fragment type).expression :=
  fragment_induction (by decide) Zod.solid_recordId (by decide) (fun _ h => Zod.solid_array (Zod.solid_render h))
    (fun _ h => Zod.solid_union h) type

end FieldType

namespace Constraint

/-- An assertion adds no call to an expression, or that of a refinement. -/
theorem calls_effect_cases (base : Text) (assertion : Option Text) :
    (effect base assertion).calls = [] ∨ ∃ entry ∈ refinements, (effect base assertion).calls = entry.2 := by
  unfold effect
  split
  · exact Or.inl rfl
  · exact Or.inl rfl
  · split
    · rename_i call hcall
      split
      · exact Or.inr ⟨_, Text.mem_of_get?_eq_some hcall, rfl⟩
      · exact Or.inl rfl
    · split <;> exact Or.inl rfl

theorem solid_calls_effect (base : Text) (assertion : Option Text) : Solid (effect base assertion).calls := by
  have hall : ∀ entry ∈ refinements, Solid entry.2 := by decide
  rcases calls_effect_cases base assertion with hcalls | ⟨entry, hentry, hcalls⟩
  · rw [hcalls]
    exact solid_nil
  · rw [hcalls]
    exact hall entry hentry

theorem solid_of_defaultLiteral? {default literal : Text} (h : defaultLiteral? default = some literal) :
    Solid literal := by
  unfold defaultLiteral? at h
  split at h
  · cases h
    exact solid_quoted _
  · obtain ⟨value, -, rfl⟩ := Option.map_eq_some_iff.mp h
    exact value.solid_text

variable {expression : Text}

theorem solid_finish (h : Solid expression) (default : Option Text) (optional : Bool) :
    Solid (finish expression default optional).expression := by
  unfold finish
  split
  · split
    · rename_i hliteral
      exact Zod.solid_withDefault h (solid_of_defaultLiteral? hliteral)
    · exact Zod.solid_optional h
  · dsimp only
    split
    · exact Zod.solid_optional h
    · exact h

theorem isPrefix_finish (expression : Text) (default : Option Text) (optional : Bool) :
    expression <+: (finish expression default optional).expression := by
  unfold finish
  split
  · split
    · rw [Zod.withDefault, List.append_assoc, List.append_assoc]
      exact List.prefix_append _ _
    · exact List.prefix_append _ _
  · dsimp only
    split
    · exact List.prefix_append _ _
    · exact List.prefix_rfl

end Constraint

theorem Zod.isPrefix_describe (expression : Text) (notes : List Text) : expression <+: Zod.describe expression notes := by
  unfold Zod.describe
  split
  · exact List.prefix_rfl
  · rw [List.append_assoc, List.append_assoc]
    exact List.prefix_append _ _

theorem solid_constrain {base : Text} (h : Solid base) (definition : FieldDefinition) (optional : Bool) :
    Solid (constrain base definition optional).expression :=
  Constraint.solid_finish (Zod.solid_describe (h.append (Constraint.solid_calls_effect base _)) _) _ _

/-- Constraints only go on behind the expression. -/
theorem isPrefix_constrain (base : Text) (definition : FieldDefinition) (optional : Bool) :
    base <+: (constrain base definition optional).expression :=
  (List.prefix_append base _).trans ((Zod.isPrefix_describe _ _).trans (Constraint.isPrefix_finish _ _ _))

namespace FieldDefinition

/-- What the clauses of a scalar constrain: its type, or the strings that it allows. -/
def leafBase (definition : FieldDefinition) : Text :=
  match definition.inside.bind Constraint.enumValues? with
  | some values =>
    if FieldType.isArray definition.typeText then Zod.array (Zod.enum values) else Zod.enum values
  | none => (FieldType.fragment definition.typeText).expression

theorem solid_leafBase (definition : FieldDefinition) : Solid definition.leafBase := by
  unfold leafBase
  split
  · split
    · exact Zod.solid_array (Zod.solid_enum _)
    · exact Zod.solid_enum _
  · exact FieldType.solid_fragment _

theorem leafFragment_eq (definition : FieldDefinition) : definition.leafFragment =
    constrain definition.leafBase definition (FieldType.fragment definition.typeText).optional := rfl

theorem solid_leafFragment (definition : FieldDefinition) : Solid definition.leafFragment.expression :=
  solid_constrain definition.solid_leafBase _ _

end FieldDefinition

end SurrealZod
