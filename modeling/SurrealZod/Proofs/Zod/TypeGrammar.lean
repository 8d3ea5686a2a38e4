import Mathlib.Data.List.ReduceOption
import SurrealZod.Proofs.Text.LetterCase
import SurrealZod.Proofs.Text.Nesting
import SurrealZod.Zod.Expression

/-! The grammar of field types and what a type means. A type is the list of its variants. Its spellings are free in
the letter case of names and in the white space around brackets and separators. A name divides no text, and a keyword
in any letter case is a name. -/

namespace SurrealZod

open Text

/-! ### Types and their meaning -/

/-- A variant of a field type. A type is the list of its variants. -/
inductive TypeVariant where
  | none
  /-- A type without arguments, with its name in lower case. -/
  | name (word : Text)
  | record (tables : List Text)
  /-- An array or a set. -/
  | array (element : List TypeVariant)
  | option (inner : List TypeVariant)

/-- The fragment of a union by those of its variants, where there is none for NONE. -/
def Fragment.ofVariants (variants : List (Option Fragment)) : Fragment where
  expression :=
    match variants.reduceOption with
    | [] => Zod.any
    | [only] => only.expression
    | several => Zod.union (several.map (·.expression))
  optional := variants.any fun variant => variant.all (·.optional)

namespace TypeVariant

/-- The validators of the types without arguments, by their names. -/
def validators : List (List Text × Text) :=
  [(["string", "duration"], "z.string()"), (["int", "float", "decimal", "number"], "z.number()"),
    (["bool"], "z.boolean()"), (["datetime"], "z.string().datetime()"), (["uuid"], "z.string().uuid()"),
    (["object"], "z.object(\x7b\x7d).passthrough()"), (["null"], "z.null()"),
    (["bytes"], "z.instanceof(ArrayBuffer)"), (["any", "geometry"], "z.any()"), (["record"], "recordId()"),
    (["array", "set"], "z.array(z.any())")]

/-- The validator of a name. One that is not known accepts everything. -/
def validator (word : Text) : Text := ((validators.find? (·.1.contains word)).map (·.2)).getD "z.any()"

mutual

/-- The fragment that a variant stands for. NONE has none. -/
def fragment? : TypeVariant → Option Fragment
  | none => .none
  | name word => some { expression := validator word, optional := false }
  | record tables => some { expression := Zod.recordId tables, optional := false }
  | array element =>
    let fragment := Fragment.ofVariants (fragments element)
    some
      { expression :=
          "z.array(" ++ (if fragment.optional then fragment.expression ++ ".optional()" else fragment.expression) ++ ")"
        optional := false }
  | option inner => some { Fragment.ofVariants (fragments inner) with optional := true }

def fragments : List TypeVariant → List (Option Fragment)
  | [] => []
  | variant :: rest => variant.fragment? :: fragments rest

end

/-- What a type means: an expression, and whether a field of the type may be left out. -/
def meaning (type : List TypeVariant) : Fragment := Fragment.ofVariants (fragments type)

/-! ### Spellings -/

/-- The characters that divide a type. -/
def dividers : Text := ['<', '>', '(', ')', '[', ']', '{', '}', '|', ',']

/-- A text that can be a name in a type. -/
structure IsTypeWord (word : Text) : Prop where
  ne_nil : word ≠ []
  plain : ∀ c ∈ word, isBlank c = false ∧ c ∉ dividers

instance (word : Text) : Decidable (IsTypeWord word) :=
  decidable_of_iff (word ≠ [] ∧ word.all (fun c => !isBlank c && c ∉ dividers) = true)
    ⟨fun h => ⟨h.1, by simpa using h.2⟩, fun h => ⟨h.ne_nil, by simpa using h.plain⟩⟩

/-- A keyword with arguments in angle brackets, and white space in front of them. -/
def applied (keyword gap arguments : Text) : Text := keyword ++ gap ++ '<' :: (arguments ++ ['>'])

/-- The texts that spell a type. -/
inductive Spells : List TypeVariant → Text → Prop where
  | none {word : Text} (hword : asciiLower word = "none") : Spells [.none] word
  | name {word : Text} (hword : IsTypeWord word) (hnone : asciiLower word ≠ "none")
      (hoption : asciiLower word ≠ "option") : Spells [.name (asciiLower word)] word
  | record {keyword gap : Text} {tables : List Text} (hkeyword : asciiLower keyword = "record")
      (hgap : ∀ c ∈ gap, isBlank c = true) (hne : tables ≠ []) (htables : ∀ table ∈ tables, IsTypeWord (trim table)) :
      Spells [.record (tables.map trim)] (applied keyword gap (join ['|'] tables))
  | array {keyword gap inner : Text} {element : List TypeVariant}
      (hkeyword : asciiLower keyword = "array" ∨ asciiLower keyword = "set") (hgap : ∀ c ∈ gap, isBlank c = true)
      (hinner : Spells element inner) (hne : element ≠ [.none]) :
      Spells [.array element] (applied keyword gap inner)
  | sizedArray {keyword gap inner size : Text} {element : List TypeVariant}
      (hkeyword : asciiLower keyword = "array" ∨ asciiLower keyword = "set") (hgap : ∀ c ∈ gap, isBlank c = true)
      (hinner : Spells element inner) (hne : element ≠ [.none]) (hsize : IsTypeWord (trim size)) :
      Spells [.array element] (applied keyword gap (inner ++ ',' :: size))
  | option {keyword gap inner : Text} {type : List TypeVariant} (hkeyword : asciiLower keyword = "option")
      (hgap : ∀ c ∈ gap, isBlank c = true) (hinner : Spells type inner) (hne : type ≠ [.none]) :
      Spells [.option type] (applied keyword gap inner)
  | union {first second : List TypeVariant} {s t : Text} (hs : Spells first s) (ht : Spells second t) :
      Spells (first ++ second) (s ++ '|' :: t)
  | padded {type : List TypeVariant} {before text after : Text} (hbefore : ∀ c ∈ before, isBlank c = true)
      (hafter : ∀ c ∈ after, isBlank c = true) (htext : Spells type text) : Spells type (before ++ text ++ after)

/-! ### Words -/

variable {word keyword : Text}

theorem isTypeWord_ascii : ∀ n < 0x80, (Char.ofNat n).toLower.isLower = true →
    isBlank (Char.ofNat n) = false ∧ Char.ofNat n ∉ dividers := by
  decide +kernel

theorem isTypeWord_of_asciiLower (hne : keyword ≠ []) (hkeyword : keyword.all isPlainSmall = true)
    (h : asciiLower word = keyword) : IsTypeWord word where
  ne_nil := by
    rintro rfl
    exact hne h.symm
  plain c hc := by
    have hmem : c.toLower ∈ keyword := h ▸ List.mem_map_of_mem hc
    have hsmall := List.all_eq_true.mp hkeyword _ hmem
    have hascii : c.toNat < 0x80 := by
      refine Nat.not_le.mp fun hbeyond => ?_
      rw [toLower_eq_self hbeyond, isPlainSmall_eq_false hbeyond] at hsmall
      cases hsmall
    have hlower : c.toLower.isLower = true := (Bool.and_eq_true_iff.mp hsmall).1
    rw [← Char.ofNat_toNat c] at hlower ⊢
    exact isTypeWord_ascii c.toNat hascii hlower

namespace IsTypeWord

theorem trim_eq (h : IsTypeWord word) : trim word = word := trim_of_not_blank fun c hc => (h.plain c hc).1

theorem ne_of_mem (h : IsTypeWord word) {c d : Char} (hc : c ∈ word) (hd : d ∈ dividers) : c ≠ d := by
  rintro rfl
  exact (h.plain c hc).2 hd

theorem nesting_eq_zero (h : IsTypeWord word) : ∀ c ∈ word, nesting c = 0 := by
  intro c hc
  have hopen : ¬(c = '<' ∨ c = '(' ∨ c = '[' ∨ c = '{') := by
    rintro (rfl | rfl | rfl | rfl) <;> exact (h.plain _ hc).2 (by decide)
  have hclose : ¬(c = '>' ∨ c = ')' ∨ c = ']' ∨ c = '}') := by
    rintro (rfl | rfl | rfl | rfl) <;> exact (h.plain _ hc).2 (by decide)
  rw [nesting, if_neg hopen, if_neg hclose]

theorem balanced (h : IsTypeWord word) : Balanced word := balanced_of_forall h.nesting_eq_zero

theorem uncut (h : IsTypeWord word) {separator : Char} (hseparator : separator ∈ dividers) : Uncut separator word :=
  pieces_of_forall_ne (fun _ hc => h.ne_of_mem hc hseparator) 0

end IsTypeWord

end TypeVariant

end SurrealZod
