import SurrealZod.Text.Casing
import SurrealZod.Text.Keyed
import SurrealZod.Text.Nesting
import SurrealZod.Zod.Expression

/-!
# Field types

A field type is a union of variants separated by `|`, or a name with arguments in angle brackets. `option` and the
variant `NONE` make a field optional without a trace in its expression; the elements of an array carry their
optionality inside. Names count in any letter case, and a name that is not known accepts everything.
-/

namespace SurrealZod

namespace FieldType

/-- The text between the first `<` and the last `>`, and the text before it. -/
def splitAngles? (type : Text) : Option (Text × Text) :=
  match type.dropWhile (· ≠ '<') with
  | [] => none
  | _ :: behind =>
    match behind.reverse.dropWhile (· ≠ '>') with
    | [] => none
    | _ :: inner => some (type.takeWhile (· ≠ '<'), inner.reverse)

/-- The name of a type and its arguments. Without a pair of angle brackets the whole text is the name. -/
def nameAndArguments (type : Text) : Text × List Text :=
  match splitAngles? type with
  | some (name, inner) => (Text.trim name, Text.splitTopLevel ',' inner)
  | none => (type, [])

/-- The expressions of the types that take no arguments. -/
def scalarExpressions : List (Text × Text) :=
  [("string", Zod.string), ("int", "z.number()"), ("float", "z.number()"), ("decimal", "z.number()"),
    ("number", "z.number()"), ("bool", "z.boolean()"), ("datetime", "z.string().datetime()"),
    ("duration", Zod.string), ("uuid", "z.string().uuid()"), ("object", "z.object(\x7b\x7d).passthrough()"),
    ("null", "z.null()"), ("bytes", "z.instanceof(ArrayBuffer)"), ("any", Zod.any), ("geometry", Zod.any)]

def scalarExpression (name : Text) : Text := (Text.get? name scalarExpressions).getD Zod.any

/-- The expression of references to the tables that an argument lists. -/
def recordExpression (tables : Option Text) : Text :=
  Zod.recordId (((tables.map (Text.splitTopLevel '|')).getD []).filter (!·.isEmpty))

def isNone (variant : Text) : Bool := Text.lower variant = "none"

/-- The expression of a union's variants; a single one stands for itself. -/
def unionExpression : List Text → Text
  | [] => Zod.any
  | [expression] => expression
  | expressions => Zod.union expressions

def isArrayName (name : Text) : Bool := name = "array" || name = "set"

/-- Whether the name at the head of a type is that of an array type. -/
def isArray (type : Text) : Bool := isArrayName (Text.lower (nameAndArguments (Text.trim type)).1)

theorem length_inner_lt {type name inner : Text} (h : splitAngles? type = some (name, inner)) :
    inner.length < type.length := by
  unfold splitAngles? at h
  split at h
  · simp at h
  · next first behind hbehind =>
    split at h
    · simp at h
    · next last rest hrest =>
      have hb : (type.dropWhile (· ≠ '<')).length ≤ type.length := (List.dropWhile_sublist _).length_le
      have hr : (behind.reverse.dropWhile (· ≠ '>')).length ≤ behind.length := by
        simpa using (List.dropWhile_sublist (· ≠ '>') : List.Sublist _ behind.reverse).length_le
      rw [hbehind] at hb
      rw [hrest] at hr
      simp at h
      simp [← h.2] at *
      omega

theorem length_lt_of_mem_arguments {type argument : Text} (h : argument ∈ (nameAndArguments type).2) :
    argument.length < type.length := by
  unfold nameAndArguments at h
  split at h
  · next name inner hsplit =>
    have hin := length_inner_lt hsplit
    obtain ⟨piece, hpiece, rfl⟩ := List.mem_map.1 h
    have := Text.length_le_of_mem_pieces hpiece
    have := Text.length_trim_le piece
    omega
  · simp at h

/-- The expression of a type and whether it makes a field optional. -/
def fragment (type : Text) : Fragment :=
  let variants := Text.splitTopLevel '|' (Text.trim type)
  if _hmany : 1 < variants.length then
    let mapped := (variants.filter (!isNone ·)).attach.map fun variant => fragment variant.1
    { expression := unionExpression (mapped.map (·.expression))
      optional := variants.any isNone || mapped.any (·.optional) }
  else
    let name := Text.lower (nameAndArguments (Text.trim type)).1
    match _harguments : (nameAndArguments (Text.trim type)).2 with
    | [] =>
      if name = "option" then { expression := Zod.any, optional := true }
      else if isArrayName name then { expression := Zod.array Zod.any, optional := false }
      else if name = "record" then { expression := recordExpression none, optional := false }
      else { expression := scalarExpression name, optional := false }
    | argument :: _ =>
      if name = "option" then { expression := (fragment argument).expression, optional := true }
      else if isArrayName name then { expression := Zod.array (fragment argument).render, optional := false }
      else if name = "record" then { expression := recordExpression (some argument), optional := false }
      else { expression := scalarExpression name, optional := false }
termination_by type.length
decreasing_by
  · have hmem := (List.mem_filter.1 variant.2).1
    have := Text.length_lt_of_mem_splitTopLevel hmem _hmany
    have := Text.length_trim_le type
    omega
  all_goals
    have hmem : argument ∈ (nameAndArguments (Text.trim type)).2 := by simp [_harguments]
    have := length_lt_of_mem_arguments hmem
    have := Text.length_trim_le type
    omega

end FieldType

end SurrealZod
