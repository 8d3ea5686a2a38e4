import SurrealZod.Proofs.Zod.Solidity
import SurrealZod.Proofs.Zod.TypeReading

/-! Types that are arrays. Whether the strings that a field allows are those of its elements is told by the name at
the head of its type, which is the text in front of the first angle bracket. The expression of the type is told by
its variants and options. The two agree on all types but options of arrays and unions of a certain kind. -/

namespace SurrealZod

open Text TypeVariant

/-- Whether an expression begins as an array. -/
def Zod.OpensArray (expression : Text) : Prop := ("z.array(" : Text) <+: expression

instance (expression : Text) : Decidable (Zod.OpensArray expression) := inferInstanceAs (Decidable (_ <+: _))

namespace Zod

theorem not_opensArray_of_isPrefix {first expression : Text} (hfirst : first <+: expression)
    (hapart : ¬OpensArray first ∧ ¬first <+: ("z.array(" : Text)) : ¬OpensArray expression := fun h =>
  (List.prefix_or_prefix_of_prefix h hfirst).elim hapart.1 hapart.2

theorem opensArray_array (element : Text) : OpensArray (array element) :=
  ⟨element ++ ")", (List.append_assoc _ _ _).symm⟩

theorem not_opensArray_union (expressions : List Text) : ¬OpensArray (union expressions) := by
  have hfirst : ("z.union([" : Text) <+: union expressions := ⟨_, (List.append_assoc _ _ _).symm⟩
  exact not_opensArray_of_isPrefix hfirst (by decide)

theorem isPrefix_recordId : (tables : List Text) → ("recordId(" : Text) <+: recordId tables
  | [] => by decide
  | [_] => ⟨_, (List.append_assoc _ _ _).symm⟩
  | _ :: _ :: _ => List.IsPrefix.trans (by decide) ⟨_, (List.append_assoc ("recordId([" : Text) _ _).symm⟩

theorem not_opensArray_recordId (tables : List Text) : ¬OpensArray (recordId tables) :=
  not_opensArray_of_isPrefix (isPrefix_recordId tables) (by decide)

end Zod

namespace FieldType

variable {type word argument : Text}

/-! ### The name at the head -/

/-- The names of array types, in any letter case. -/
def IsArrayWord (word : Text) : Prop := asciiLower word = "array" ∨ asciiLower word = "set"

/-- Whether a type is the name of an array type, or has one in front of an angle bracket that some bracket behind it
closes. -/
def HasArrayHead (type : Text) : Prop :=
  IsArrayWord (trim type) ∨ ∃ keyword gap arguments behind, IsArrayWord keyword ∧ (∀ c ∈ gap, isBlank c = true) ∧
    trim type = applied keyword gap arguments ++ behind

theorem isArrayName_lower_iff : isArrayName (lower word) = true ↔ IsArrayWord word := by
  rw [isArrayName, Bool.or_eq_true, decide_eq_true_eq, decide_eq_true_eq, lower_eq_iff (by decide),
    lower_eq_iff (by decide)]
  rfl

theorem IsArrayWord.isTypeWord (h : IsArrayWord word) : IsTypeWord word :=
  h.elim (isTypeWord_of_asciiLower (by decide) (by decide)) (isTypeWord_of_asciiLower (by decide) (by decide))

variable {front behind : Text}

theorem nameAndArguments_of_closed (hfront : '<' ∉ front) (hbehind : '>' ∈ behind) :
    (nameAndArguments (front ++ '<' :: behind)).1 = trim front := by
  obtain ⟨rest, inner, hreverse, hrest⟩ := List.eq_append_cons_of_mem (List.mem_reverse.mpr hbehind)
  have heq : behind = inner.reverse ++ '>' :: rest.reverse := by
    rw [← List.reverse_reverse behind, hreverse, List.reverse_append, List.reverse_cons, List.append_assoc]
    rfl
  rw [nameAndArguments, heq, splitAngles?_eq_some hfront (mt List.mem_reverse.mp hrest) inner.reverse]

theorem nameAndArguments_of_open (hfront : '<' ∉ front) (hbehind : '>' ∉ behind) :
    (nameAndArguments (front ++ '<' :: behind)).1 = front ++ '<' :: behind := by
  have hopen : ∀ c ∈ front, decide (c ≠ '<') = true := fun c hc => decide_eq_true (ne_of_mem_of_not_mem hc hfront)
  have hdrop : (front ++ '<' :: behind).dropWhile (· ≠ '<') = '<' :: behind := by
    rw [List.dropWhile_append_of_pos hopen]
    rfl
  have hclose : behind.reverse.dropWhile (· ≠ '>') = [] := by
    rw [List.dropWhile_eq_nil_iff]
    exact fun c hc => decide_eq_true (ne_of_mem_of_not_mem (List.mem_reverse.mp hc) hbehind)
  rw [nameAndArguments, splitAngles?, hdrop]
  dsimp only
  rw [hclose]

theorem isArray_iff : isArray type = true ↔ HasArrayHead type := by
  rw [isArray, isArrayName_lower_iff]
  constructor
  · intro hword
    by_cases hopen : '<' ∈ trim type
    · obtain ⟨front, behind, htype, hfront⟩ := List.eq_append_cons_of_mem hopen
      by_cases hclose : '>' ∈ behind
      · rw [htype, nameAndArguments_of_closed hfront hclose] at hword
        have hfirst : front <+: trim type := ⟨'<' :: behind, htype.symm⟩
        obtain ⟨gap, hgap, hname⟩ := exists_eq_trim_append (beginsBlank_of_isPrefix hfirst (beginsBlank_trim type))
        obtain ⟨arguments, rest, rfl⟩ := List.append_of_mem hclose
        refine Or.inr ⟨trim front, gap, arguments, rest, hword, hgap, ?_⟩
        rw [htype, applied, ← hname]
        simp
      · -- Without a closing bracket the name is the whole type.
        rw [htype, nameAndArguments_of_open hfront hclose, ← htype] at hword
        exact Or.inl hword
    · rw [nameAndArguments_of_not_mem hopen] at hword
      exact Or.inl hword
  · rintro (hword | ⟨keyword, gap, arguments, rest, hword, hgap, htype⟩)
    · have hplain : '<' ∉ trim type := fun hmem => hword.isTypeWord.ne_of_mem hmem (by decide) rfl
      rwa [nameAndArguments_of_not_mem hplain]
    · have hfront : '<' ∉ keyword ++ gap := not_mem_keyword_gap hword.isTypeWord hgap
      have hsplit : trim type = keyword ++ gap ++ '<' :: (arguments ++ '>' :: rest) := by
        rw [htype, applied]
        simp
      rw [hsplit, nameAndArguments_of_closed hfront (List.mem_append_right _ List.mem_cons_self),
        trim_append_blanks keyword hgap, hword.isTypeWord.trim_eq]
      exact hword

/-! ### The expression -/

/-- Whether a type maps to an array: an array type itself, an option of one, or a union that has no other variant but
NONE. -/
inductive MapsToArray : Text → Prop where
  | head {type : Text} (hone : Uncut '|' type) (hhead : HasArrayHead type) : MapsToArray type
  | option {type argument : Text} {rest : List Text} (hone : Uncut '|' type)
      (hname : asciiLower (nameAndArguments (trim type)).1 = "option")
      (harguments : (nameAndArguments (trim type)).2 = argument :: rest) (h : MapsToArray argument) : MapsToArray type
  | union {type only : Text} (hmany : ¬Uncut '|' type)
      (hvariants : (splitTopLevel '|' type).filter (!isNone ·) = [only]) (h : MapsToArray only) : MapsToArray type

theorem uncut_iff : Uncut '|' type ↔ ¬1 < (splitTopLevel '|' (trim type)).length := by
  refine ⟨not_many, fun hone => ?_⟩
  rw [splitTopLevel_trim (by decide), splitTopLevel, List.length_map] at hone
  obtain ⟨piece, rest, hpieces⟩ := List.exists_cons_of_ne_nil (pieces_ne_nil '|' 0 type)
  rw [hpieces, List.length_cons] at hone
  have hrest : rest = [] := List.length_eq_zero_iff.mp (by omega)
  have hjoin := join_pieces '|' 0 type
  rw [hpieces, hrest, join, List.intercalate_singleton] at hjoin
  rw [Uncut, hpieces, hrest, hjoin]

theorem mapsToArray_of_many (hmany : ¬Uncut '|' type) : MapsToArray type ↔
    ∃ only, (splitTopLevel '|' type).filter (!isNone ·) = [only] ∧ MapsToArray only := by
  constructor
  · intro h
    cases h with
    | head hone => exact absurd hone hmany
    | option hone => exact absurd hone hmany
    | union _ hvariants h => exact ⟨_, hvariants, h⟩
  · rintro ⟨only, hvariants, h⟩
    exact .union hmany hvariants h

theorem mapsToArray_of_one (hone : Uncut '|' type) : MapsToArray type ↔
    if lower (nameAndArguments (trim type)).1 = "option" then
      ∃ argument rest, (nameAndArguments (trim type)).2 = argument :: rest ∧ MapsToArray argument
    else isArrayName (lower (nameAndArguments (trim type)).1) = true := by
  have hname : lower (nameAndArguments (trim type)).1 = "option" ↔
      asciiLower (nameAndArguments (trim type)).1 = "option" := lower_eq_iff (by decide)
  have hhead : isArrayName (lower (nameAndArguments (trim type)).1) = true ↔ HasArrayHead type := isArray_iff
  by_cases hoption : lower (nameAndArguments (trim type)).1 = "option"
  · rw [if_pos hoption]
    constructor
    · intro h
      cases h with
      | head _ harray =>
          rw [← hhead, hoption] at harray
          exact absurd harray (by decide)
      | option _ _ harguments h => exact ⟨_, _, harguments, h⟩
      | union hmany => exact absurd hone hmany
    · rintro ⟨argument, rest, harguments, h⟩
      exact .option hone (hname.mp hoption) harguments h
  · rw [if_neg hoption, hhead]
    constructor
    · intro h
      cases h with
      | head _ harray => exact harray
      | option _ hother => exact absurd (hname.mpr hother) hoption
      | union hmany => exact absurd hone hmany
    · exact .head hone

theorem not_opensArray_scalarExpression (name : Text) : ¬Zod.OpensArray (scalarExpression name) :=
  scalarExpression_induction (P := fun expression => ¬Zod.OpensArray expression) (by decide) name

theorem not_opensArray_recordExpression (tables : Option Text) : ¬Zod.OpensArray (recordExpression tables) :=
  Zod.not_opensArray_recordId (((tables.map (splitTopLevel '|')).getD []).filter (!·.isEmpty))

/-- An expression begins as an array exactly if its type maps to one. -/
theorem opensArray_fragment_iff (type : Text) : Zod.OpensArray (fragment type).expression ↔ MapsToArray type := by
  fun_induction fragment type with
  | case1 type variants hmany mapped ih =>
      have hvariants : variants = splitTopLevel '|' type := splitTopLevel_trim (by decide) type
      have hmapped : mapped = (variants.filter (!isNone ·)).map fragment := List.attach_map_val
      have hread : ∀ variant ∈ variants.filter (!isNone ·),
          Zod.OpensArray (fragment variant).expression ↔ MapsToArray variant := fun variant hmem => ih ⟨variant, hmem⟩
      rw [mapsToArray_of_many (mt uncut_iff.mp (not_not_intro hmany)), ← hvariants]
      dsimp only
      rw [hmapped]
      -- One variant stands for itself, several of them begin as a union.
      rcases hkept : variants.filter (!isNone ·) with _ | ⟨first, _ | ⟨second, rest⟩⟩
      · refine iff_of_false (by decide) ?_
        rintro ⟨only, honly, -⟩
        cases honly
      · rw [hkept] at hread
        refine (hread first List.mem_cons_self).trans ⟨fun h => ⟨first, rfl, h⟩, ?_⟩
        rintro ⟨only, honly, h⟩
        rwa [List.singleton_inj.mp honly]
      · refine iff_of_false (Zod.not_opensArray_union _) ?_
        rintro ⟨only, honly, -⟩
        cases honly
  | case2 type variants hone name harguments hoption =>
      rw [mapsToArray_of_one (uncut_iff.mpr hone), if_pos hoption, harguments]
      refine iff_of_false (by decide) ?_
      rintro ⟨argument, rest, hargument, -⟩
      cases hargument
  | case3 type variants hone name harguments hoption harray =>
      rw [mapsToArray_of_one (uncut_iff.mpr hone), if_neg hoption]
      exact iff_of_true (Zod.opensArray_array _) harray
  | case4 type variants hone name harguments hoption harray =>
      rw [mapsToArray_of_one (uncut_iff.mpr hone), if_neg hoption]
      exact iff_of_false (not_opensArray_recordExpression none) harray
  | case5 type variants hone name harguments hoption harray =>
      rw [mapsToArray_of_one (uncut_iff.mpr hone), if_neg hoption]
      exact iff_of_false (not_opensArray_scalarExpression _) harray
  | case6 type variants hone name argument rest harguments hoption ih =>
      rw [mapsToArray_of_one (uncut_iff.mpr hone), if_pos hoption, harguments]
      refine ih.trans ⟨fun h => ⟨argument, rest, rfl, h⟩, ?_⟩
      rintro ⟨other, others, hother, h⟩
      rwa [(List.cons.inj hother).1]
  | case7 type variants hone name argument rest harguments hoption harray =>
      rw [mapsToArray_of_one (uncut_iff.mpr hone), if_neg hoption]
      exact iff_of_true (Zod.opensArray_array _) harray
  | case8 type variants hone name argument rest harguments hoption harray =>
      rw [mapsToArray_of_one (uncut_iff.mpr hone), if_neg hoption]
      exact iff_of_false (not_opensArray_recordExpression (some argument)) harray
  | case9 type variants hone name argument rest harguments hoption harray =>
      rw [mapsToArray_of_one (uncut_iff.mpr hone), if_neg hoption]
      exact iff_of_false (not_opensArray_scalarExpression _) harray

/-! ### Agreement -/

/-- The types the head of which says something else than the expression. -/
inductive Misread : Text → Prop where
  /-- An option of an array has the name of the option in front. -/
  | option {type argument : Text} {rest : List Text} (hone : Uncut '|' type)
      (hname : asciiLower (nameAndArguments (trim type)).1 = "option")
      (harguments : (nameAndArguments (trim type)).2 = argument :: rest) (h : MapsToArray argument) : Misread type
  /-- A union that begins as an array has other variants. -/
  | others {type : Text} (hmany : ¬Uncut '|' type) (hhead : HasArrayHead type)
      (h : ∀ only, (splitTopLevel '|' type).filter (!isNone ·) = [only] → ¬MapsToArray only) : Misread type
  /-- A union of an array and NONE has something in front of the array, or the array is without brackets. -/
  | only {type only : Text} (hmany : ¬Uncut '|' type) (hhead : ¬HasArrayHead type)
      (hvariants : (splitTopLevel '|' type).filter (!isNone ·) = [only]) (h : MapsToArray only) : Misread type

theorem HasArrayHead.ne_option (h : HasArrayHead type) : asciiLower (nameAndArguments (trim type)).1 ≠ "option" := by
  have harray : isArrayName (lower (nameAndArguments (trim type)).1) = true := isArray_iff.mpr h
  rcases isArrayName_lower_iff.mp harray with hword | hword <;> rw [hword] <;> decide

theorem hasArrayHead_iff_mapsToArray_iff : (HasArrayHead type ↔ MapsToArray type) ↔ ¬Misread type := by
  constructor
  · intro hagree hmisread
    cases hmisread with
    | option hone hname harguments h =>
        exact absurd hname (hagree.mpr (.option hone hname harguments h)).ne_option
    | others hmany hhead h =>
        obtain ⟨only, hvariants, honly⟩ := (mapsToArray_of_many hmany).mp (hagree.mp hhead)
        exact h only hvariants honly
    | only hmany hhead hvariants h => exact hhead (hagree.mpr (.union hmany hvariants h))
  · intro hagree
    constructor
    · intro hhead
      by_cases hone : Uncut '|' type
      · exact .head hone hhead
      · by_contra hnot
        exact hagree (.others hone hhead fun only hvariants h => hnot (.union hone hvariants h))
    · intro h
      cases h with
      | head _ hhead => exact hhead
      | option hone hname harguments h => exact absurd (.option hone hname harguments h) hagree
      | union hmany hvariants h =>
          by_contra hhead
          exact hagree (.only hmany hhead hvariants h)

end FieldType

namespace FieldDefinition

open FieldType

variable {definition : FieldDefinition} {values : List Text}

/-- The strings that a scalar allows are those of its elements if the head of its type says so. -/
theorem isPrefix_array_enum_iff (h : definition.inside.bind Constraint.enumValues? = some values) :
    Zod.array (Zod.enum values) <+: definition.leafFragment.expression ↔ isArray definition.typeText = true := by
  have hbase : (if isArray definition.typeText then Zod.array (Zod.enum values) else Zod.enum values) <+:
      definition.leafFragment.expression := by
    have hleaf := isPrefix_constrain definition.leafBase definition (fragment definition.typeText).optional
    rwa [← leafFragment_eq, leafBase, h] at hleaf
  cases harray : isArray definition.typeText with
  | true =>
      rw [harray, if_pos rfl] at hbase
      exact iff_of_true hbase rfl
  | false =>
      rw [harray, if_neg Bool.false_ne_true] at hbase
      have hfirst : ("z.enum([" : Text) <+: Zod.enum values := ⟨_, (List.append_assoc _ _ _).symm⟩
      refine iff_of_false (fun hprefix => ?_) Bool.false_ne_true
      exact Zod.not_opensArray_of_isPrefix (hfirst.trans hbase) (by decide) ((Zod.opensArray_array _).trans hprefix)

end FieldDefinition

namespace FieldType

/-- The head of a type says that it is an array exactly if its expression is one, and so the strings that a field of
the type allows are those of the elements exactly if there are elements, unless the type is an option of an array, a
union of an array and something else, or one of an array and NONE that does not begin with the array's bracket. -/
theorem isArray_agrees_iff_not_misread (type : Text) :
    (isArray type = true ↔ HasArrayHead type) ∧
      (Zod.OpensArray (fragment type).expression ↔ MapsToArray type) ∧
      ((isArray type = true ↔ Zod.OpensArray (fragment type).expression) ↔ ¬Misread type) ∧
      ∀ (definition : FieldDefinition) (values : List Text), definition.typeText = type →
        definition.inside.bind Constraint.enumValues? = some values →
        ((Zod.array (Zod.enum values) <+: definition.leafFragment.expression ↔
          Zod.OpensArray (fragment type).expression) ↔ ¬Misread type) := by
  have hagree : (isArray type = true ↔ Zod.OpensArray (fragment type).expression) ↔ ¬Misread type := by
    rw [isArray_iff, opensArray_fragment_iff]
    exact hasArrayHead_iff_mapsToArray_iff
  refine ⟨isArray_iff, opensArray_fragment_iff type, hagree, ?_⟩
  rintro definition values rfl hvalues
  rw [FieldDefinition.isPrefix_array_enum_iff hvalues]
  exact hagree

theorem isArray_agrees_of_array_or_none :
    let tags : FieldDefinition := { name := "tags", fieldType := some "Set<string> | none", inside := some "['a']" }
    tags.inside.bind Constraint.enumValues? = some [("a" : Text)] ∧ ¬Misread tags.typeText ∧
      Zod.array (Zod.enum ["a"]) <+: tags.leafFragment.expression := by
  intro tags
  obtain ⟨-, -, hagree, helements⟩ := isArray_agrees_iff_not_misread tags.typeText
  have harray : isArray tags.typeText = true := by decide +kernel
  have hopens : Zod.OpensArray (fragment tags.typeText).expression := by decide +kernel
  have hvalues : tags.inside.bind Constraint.enumValues? = some [("a" : Text)] := by decide +kernel
  have hnot : ¬Misread tags.typeText := hagree.mp (iff_of_true harray hopens)
  exact ⟨hvalues, hnot, ((helements tags _ rfl hvalues).mpr hnot).mpr hopens⟩

/-- An array in an option is no array by its head, and a union with an array in front is one. -/
theorem misread_option_and_union :
    isArray "option<array<string>>" = false ∧ Zod.OpensArray (fragment "option<array<string>>").expression ∧
      (FieldDefinition.leafFragment { fieldType := some "option<array<string>>", inside := some "['a', 'b']" }).expression =
        "z.enum([\"a\", \"b\"]).optional()" ∧
      isArray "array<int> | string" = true ∧ ¬Zod.OpensArray (fragment "array<int> | string").expression := by
  decide +kernel

end FieldType

end SurrealZod
