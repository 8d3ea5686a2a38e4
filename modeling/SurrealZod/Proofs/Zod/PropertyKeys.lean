import SurrealZod.Proofs.Text.StringLiterals
import SurrealZod.Proofs.Zod.Levels

/-! The keys of object expressions. A name that is an ASCII identifier is its own key, and any other name is quoted. A
reader of code reads each key back, from the front of whatever is behind its colon. So no two names have the same key,
and the keys of an object are the names of the children that its schema has, each once. -/

namespace SurrealZod

open Text

namespace Lexical

/-- Reads the key that a text begins with: the name, and the text behind it. A bare key ends where no more characters
of identifiers follow. -/
def readKey? : Text → Option (Text × Text)
  | '"' :: rest =>
    (splitLiteral? rest).bind fun (body, behind) =>
      ((unescape? body).bind StringPart.decode?).map fun name => (name, behind)
  | c :: rest =>
    if Zod.isKeyStart c then some (c :: rest.takeWhile Zod.isKeyPart, rest.dropWhile Zod.isKeyPart) else none
  | [] => none

/-- The name of the property on a line of an object expression, behind its indentation. -/
def lineKey? (line : Text) : Option Text :=
  match readKey? (line.dropWhile (· = ' ')) with
  | some (name, ':' :: _) => some name
  | _ => none

theorem readKey?_quoted (name rest : Text) : readKey? (quoted name ++ rest) = some (name, rest) := by
  obtain ⟨parts, hparts, hread⟩ := exists_unescape?_flatMap_escapeChar name
  show readKey? ('"' :: (quotedTail name ++ rest)) = _
  rw [readKey?, splitLiteral?_quotedTail]
  show ((unescape? _).bind _).map _ = _
  rw [hread, Option.bind_some, hparts, Option.map_some]

end Lexical

namespace Zod

/-- An identifier of ASCII characters. -/
structure IsIdentifier (name : Text) : Prop where
  ne_nil : name ≠ []
  part : ∀ c ∈ name, c.isAlphanum ∨ c = '_' ∨ c = '$'
  start : ∀ c ∈ name.head?, c.isDigit = false

theorem isKeyPart_iff {c : Char} : isKeyPart c = true ↔ c.isAlphanum ∨ c = '_' ∨ c = '$' := by
  simp [isKeyPart, or_assoc]

theorem not_isDigit_of_isAlpha {c : Char} (h : c.isAlpha = true) : c.isDigit = false := by
  refine Bool.eq_false_iff.mpr fun hdigit => ?_
  have hnine : c.val ≤ '9'.val := of_decide_eq_true (Bool.and_eq_true_iff.mp hdigit).2
  have hletter : 'A'.val ≤ c.val := by
    rcases Bool.or_eq_true_iff.mp h with hupper | hlower
    · exact (of_decide_eq_true (p := _ ∧ _) hupper).1
    · have ha : 'a'.val ≤ c.val := of_decide_eq_true (Bool.and_eq_true_iff.mp hlower).1
      exact UInt32.le_trans (by decide) ha
  exact absurd (UInt32.le_trans hletter hnine) (by decide)

/-- A key begins with what may stand in it, but with no digit. -/
theorem isKeyStart_iff {c : Char} : isKeyStart c = true ↔ isKeyPart c = true ∧ c.isDigit = false := by
  cases halpha : c.isAlpha with
  | true => simp [isKeyStart, isKeyPart, Char.isAlphanum, halpha, not_isDigit_of_isAlpha halpha]
  | false =>
      simp only [isKeyStart, isKeyPart, Char.isAlphanum, halpha, Bool.false_or]
      constructor
      · intro h
        simp only [Bool.or_eq_true, decide_eq_true_eq] at h
        rcases h with rfl | rfl <;> decide
      · rintro ⟨hpart, hdigit⟩
        rwa [hdigit, Bool.false_or] at hpart

theorem isIdentifier_cons_iff {c : Char} {rest : Text} :
    IsIdentifier (c :: rest) ↔ (isKeyStart c && rest.all isKeyPart) = true := by
  rw [Bool.and_eq_true, isKeyStart_iff, List.all_eq_true]
  constructor
  · rintro ⟨-, hpart, hstart⟩
    obtain ⟨hfirst, hrest⟩ := List.forall_mem_cons.mp hpart
    exact ⟨⟨isKeyPart_iff.mpr hfirst, hstart c rfl⟩, fun d hd => isKeyPart_iff.mpr (hrest d hd)⟩
  · rintro ⟨⟨hfirst, hstart⟩, hrest⟩
    refine ⟨List.cons_ne_nil _ _, List.forall_mem_cons.mpr ⟨isKeyPart_iff.mp hfirst, fun d hd => ?_⟩, ?_⟩
    · exact isKeyPart_iff.mp (hrest d hd)
    · rintro d hd
      cases hd
      exact hstart

theorem propertyKey_of_isIdentifier {name : Text} (h : IsIdentifier name) : propertyKey name = name := by
  cases name with
  | nil => exact absurd rfl h.ne_nil
  | cons c rest => rw [propertyKey, if_pos (isIdentifier_cons_iff.mp h)]

theorem propertyKey_of_not_isIdentifier {name : Text} (h : ¬IsIdentifier name) : propertyKey name = quoted name := by
  cases name with
  | nil => rfl
  | cons c rest => rw [propertyKey, if_neg (mt isIdentifier_cons_iff.mpr h)]

open Lexical

theorem readKey?_of_isIdentifier {name : Text} (h : IsIdentifier name) (rest : Text) :
    readKey? (name ++ ':' :: rest) = some (name, ':' :: rest) := by
  cases name with
  | nil => exact absurd rfl h.ne_nil
  | cons c name =>
      obtain ⟨hstart, hall⟩ := Bool.and_eq_true_iff.mp (isIdentifier_cons_iff.mp h)
      have hparts : ∀ d ∈ name, isKeyPart d = true := List.all_eq_true.mp hall
      have hcolon : ¬isKeyPart ':' = true := by decide
      rw [List.cons_append, readKey?, if_pos hstart, List.takeWhile_append_of_pos hparts,
        List.dropWhile_append_of_pos hparts, List.takeWhile_cons_of_neg hcolon, List.dropWhile_cons_of_neg hcolon,
        List.append_nil]
      rintro rfl
      cases hstart

theorem readKey?_propertyKey (name rest : Text) :
    readKey? (propertyKey name ++ ':' :: rest) = some (name, ':' :: rest) := by
  by_cases h : IsIdentifier name
  · rw [propertyKey_of_isIdentifier h, readKey?_of_isIdentifier h]
  · rw [propertyKey_of_not_isIdentifier h, readKey?_quoted]

theorem propertyKey_injective : Function.Injective propertyKey := by
  intro name other h
  have hname := readKey?_propertyKey name []
  rw [h, readKey?_propertyKey] at hname
  exact (Prod.mk.inj (Option.some.inj hname)).1.symm

theorem exists_propertyKey_eq (name : Text) : ∃ first rest, propertyKey name = first :: rest ∧ first ≠ ' ' := by
  by_cases h : IsIdentifier name
  · rw [propertyKey_of_isIdentifier h]
    cases name with
    | nil => exact absurd rfl h.ne_nil
    | cons c rest =>
        refine ⟨c, rest, rfl, ?_⟩
        rintro rfl
        exact absurd (h.part ' ' List.mem_cons_self) (by decide)
  · rw [propertyKey_of_not_isIdentifier h]
    exact ⟨'"', quotedTail name, rfl, by decide⟩

theorem lineKey?_property (depth : Nat) (name expression : Text) :
    lineKey? (property depth name expression) = some name := by
  obtain ⟨first, rest, hkey, hspace⟩ := exists_propertyKey_eq name
  have hindent : ∀ c ∈ indent depth, decide (c = ' ') = true := fun c hc =>
    decide_eq_true (List.eq_of_mem_replicate hc)
  have hfirst : ¬decide (first = ' ') = true := mt of_decide_eq_true hspace
  have hdrop : (property depth name expression).dropWhile (· = ' ') =
      propertyKey name ++ ':' :: (' ' :: expression ++ [',']) := by
    have hproperty : property depth name expression =
        indent depth ++ (propertyKey name ++ ':' :: (' ' :: expression ++ [','])) := by simp [property]
    rw [hproperty, List.dropWhile_append_of_pos hindent, hkey, List.cons_append,
      List.dropWhile_cons_of_neg (p := fun c => decide (c = ' ')) hfirst]
  rw [lineKey?, hdrop, readKey?_propertyKey]
  rfl

end Zod

theorem FieldNode.map_lineKey?_properties (kind : SchemaKind) (depth : Nat) (children : List (Text × FieldNode)) :
    (properties kind depth children).map Lexical.lineKey? =
      (children.filter fun child => !kind.omits child.2.definition?).map fun child => some child.1 := by
  have hline : Lexical.lineKey? ∘ (fun entry : Text × Text => Zod.property depth entry.1 entry.2) =
      some ∘ fun entry => entry.1 := funext fun entry => Zod.lineKey?_property depth entry.1 entry.2
  rw [properties_eq, List.map_map, hline, ← List.map_map, map_fst_entries, List.map_map]
  rfl

theorem Text.Ascending.nodup_keys {α : Type} {entries : List (Text × α)} (h : Ascending entries) :
    (entries.map fun entry => Zod.propertyKey entry.1).Nodup :=
  List.pairwise_map.mpr (h.imp fun hlt heq => ne_of_lt hlt (Zod.propertyKey_injective heq))

/-- A quoted text is read back as JSON and as code, and no shorter text that it begins with is a literal. A key is the
name itself, if this is an identifier, or the quoted name; reading it gives back the name, so different names have
different keys. In every object that a schema describes, the keys on the lines are the names of the children that the
schema has, and no two children have the same key. -/
theorem keys_and_strings_read_back :
    (∀ t, JsonValue.ofText? (quoted t) = some (.string t) ∧ Lexical.literal? (quoted t) = some t ∧
      ∀ front, front <+: quoted t → front ≠ quoted t →
        JsonValue.ofText? front = none ∧ Lexical.literal? front = none) ∧
    (∀ name, (Zod.IsIdentifier name → Zod.propertyKey name = name) ∧
      (¬Zod.IsIdentifier name → Zod.propertyKey name = quoted name) ∧
      ∀ rest, Lexical.readKey? (Zod.propertyKey name ++ ':' :: rest) = some (name, ':' :: rest)) ∧
    Function.Injective Zod.propertyKey ∧
    ∀ (table : Text) (history : List FieldDefinition) (p : List Step) (definition : Option FieldDefinition)
      (children : List (Text × FieldNode)),
      (FieldTree.grown table history).root.find? p = some (.branch definition children) →
      (∀ kind depth, (FieldNode.properties kind depth children).map Lexical.lineKey? =
        (children.filter fun child => !kind.omits child.2.definition?).map fun child => some child.1) ∧
      (children.map fun child => Zod.propertyKey child.1).Nodup := by
  refine ⟨fun t => ?_, fun name => ?_, Zod.propertyKey_injective, fun table history p definition children hfind => ?_⟩
  · refine ⟨JsonValue.ofText?_quoted t, Lexical.literal?_quoted t, fun front hprefix hne => ?_⟩
    exact ⟨JsonValue.ofText?_of_isPrefix hprefix hne, Lexical.literal?_of_isPrefix hprefix hne⟩
  · exact ⟨Zod.propertyKey_of_isIdentifier, Zod.propertyKey_of_not_isIdentifier, Zod.readKey?_propertyKey name⟩
  · have hascending := (FieldTree.sound_grown table history).record.ascending_of_find? hfind
    exact ⟨fun kind depth => FieldNode.map_lineKey?_properties kind depth children, hascending.nodup_keys⟩

/-- Two fields, of which one is named like the key of the other one. -/
theorem keys_and_strings_read_back_of_quoted_name :
    let children : List (Text × FieldNode) :=
      [("\"a-b\"", .leaf { name := "\"a-b\"" }), ("a-b", .leaf { name := "a-b" })]
    (FieldTree.grown "t" [{ name := "a-b" }, { name := "\"a-b\"" }]).root.find? [] = some (.branch none children) ∧
      (children.map fun child => Zod.propertyKey child.1) = ["\"\\\"a-b\\\"\"".toList, "\"a-b\"".toList] ∧
      (children.map fun child => Zod.propertyKey child.1).Nodup := by
  intro children
  have hfind : (FieldTree.grown "t" [{ name := "a-b" }, { name := "\"a-b\"" }]).root.find? [] =
      some (.branch none children) := rfl
  exact ⟨hfind, by decide, (keys_and_strings_read_back.2.2.2 _ _ _ _ _ hfind).2⟩

end SurrealZod
