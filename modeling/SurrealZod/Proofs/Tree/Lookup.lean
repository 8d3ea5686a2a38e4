import Mathlib.Data.List.Basic
import SurrealZod.Tree.Node

/-! What an insertion does to the node at every path. The paths fall into three classes: a path that
clashes with the one inserted at is cut off, a node on the way to the inserted one is rebuilt around
what it held, and every other node stays as it is. Lookups see only presence and definition. -/

namespace SurrealZod

/-- Whether a step goes into a list. -/
def Step.isElement : Step → Bool
  | .field _ => false
  | .element => true

theorem Step.eq_of_isElement {s t : Step} (hs : s.isElement = true) (ht : t.isElement = true) : s = t := by
  cases s with
  | field => cases hs
  | element =>
      cases t with
      | field => cases ht
      | element => rfl

namespace FieldPath

/-- Two paths that need one node to be both an object and a list: after a common beginning one goes on
with a field and the other with an element. -/
def Clash (p q : List Step) : Prop :=
  ∃ (common : List Step) (s t : Step) (p' q' : List Step),
    p = common ++ s :: p' ∧ q = common ++ t :: q' ∧ s.isElement ≠ t.isElement

theorem Clash.symm {p q : List Step} (h : Clash p q) : Clash q p := by
  obtain ⟨common, s, t, p', q', hp, hq, hne⟩ := h
  exact ⟨common, t, s, q', p', hq, hp, hne.symm⟩

theorem Clash.cons {p q : List Step} (h : Clash p q) (s : Step) : Clash (s :: p) (s :: q) := by
  obtain ⟨common, a, b, p', q', rfl, rfl, hne⟩ := h
  exact ⟨s :: common, a, b, p', q', rfl, rfl, hne⟩

theorem clash_of_isElement_ne {s t : Step} (h : s.isElement ≠ t.isElement) (p q : List Step) :
    Clash (s :: p) (t :: q) :=
  ⟨[], s, t, p, q, rfl, rfl, h⟩

theorem clash_cons_cons_iff {s t : Step} {p q : List Step} :
    Clash (s :: p) (t :: q) ↔ s.isElement ≠ t.isElement ∨ s = t ∧ Clash p q := by
  constructor
  · rintro ⟨common, a, b, p', q', hp, hq, hne⟩
    cases common with
    | nil =>
        obtain ⟨rfl, -⟩ := List.cons.inj hp
        obtain ⟨rfl, -⟩ := List.cons.inj hq
        exact Or.inl hne
    | cons c common =>
        obtain ⟨rfl, hprest⟩ := List.cons.inj hp
        obtain ⟨rfl, hqrest⟩ := List.cons.inj hq
        exact Or.inr ⟨rfl, common, a, b, p', q', hprest, hqrest, hne⟩
  · rintro (hne | ⟨rfl, hclash⟩)
    · exact clash_of_isElement_ne hne p q
    · exact hclash.cons s

theorem not_clash_nil_left (q : List Step) : ¬Clash [] q := by
  rintro ⟨common, s, t, p', q', hp, -, -⟩
  exact List.append_ne_nil_of_right_ne_nil common (List.cons_ne_nil s p') hp.symm

instance decidableClash : ∀ p q : List Step, Decidable (Clash p q)
  | [], q => isFalse (not_clash_nil_left q)
  | _ :: _, [] => isFalse fun h => not_clash_nil_left _ h.symm
  | _ :: p, _ :: q =>
    have := decidableClash p q
    decidable_of_iff _ clash_cons_cons_iff.symm

/-- What clashes with a path clashes with all that goes on from it. -/
theorem Clash.of_isPrefix {p q r : List Step} (h : Clash p q) (hr : q <+: r) : Clash p r := by
  obtain ⟨common, s, t, p', q', hp, rfl, hne⟩ := h
  obtain ⟨rest, rfl⟩ := hr
  exact ⟨common, s, t, p', q' ++ rest, hp, by simp, hne⟩

end FieldPath

namespace FieldNode

open FieldPath

variable (definition : FieldDefinition) (node : FieldNode)

/-! ### One step -/

@[simp] theorem step?_blank (step : Step) : blank.step? step = none := by
  cases step <;> rfl

@[simp] theorem step?_define (step : Step) : (node.define definition).step? step = node.step? step := by
  cases node with
  | leaf => cases step <;> rfl
  | branch own children => cases children <;> cases step <;> rfl
  | list => cases step <;> rfl

@[simp] theorem definition?_define : (node.define definition).definition? = some definition := by
  cases node with
  | branch own children => cases children <;> rfl
  | _ => rfl

/-- A node that an insertion passes through keeps its definition, whatever its kind was. -/
@[simp] theorem definition?_insert_cons (step : Step) (rest : List Step) :
    (insert definition (step :: rest) node).definition? = node.definition? := by
  cases step <;> rfl

theorem step?_insert_self (step : Step) (rest : List Step) :
    (insert definition (step :: rest) node).step? step =
      some (insert definition rest ((node.step? step).getD blank)) := by
  cases step with
  | field name => exact Text.get?_put_self _ _ _
  | element => rfl

theorem step?_insert_of_ne {step other : Step} (hne : other ≠ step)
    (hkind : other.isElement = step.isElement) (rest : List Step) :
    (insert definition (step :: rest) node).step? other = node.step? other := by
  cases step with
  | element => exact absurd (Step.eq_of_isElement hkind rfl) hne
  | field name =>
      cases other with
      | element => cases hkind
      | field other => exact Text.get?_put_of_ne (fun heq => hne (congrArg Step.field heq)) _ _

theorem step?_insert_of_isElement_ne {step other : Step} (hkind : other.isElement ≠ step.isElement)
    (rest : List Step) : (insert definition (step :: rest) node).step? other = none := by
  cases step with
  | field name =>
      cases other with
      | field other => exact absurd rfl hkind
      | element => rfl
  | element =>
      cases other with
      | field other => rfl
      | element => exact absurd rfl hkind

theorem step?_eq_none_of_isElement_ne {node next : FieldNode} {step other : Step}
    (hstep : node.step? step = some next) (hkind : other.isElement ≠ step.isElement) :
    node.step? other = none := by
  cases step with
  | field name =>
      cases other with
      | field other => exact absurd rfl hkind
      | element =>
          cases node with
          | branch => rfl
          | _ => cases hstep
  | element =>
      cases other with
      | element => exact absurd rfl hkind
      | field other =>
          cases node with
          | list => rfl
          | _ => cases hstep

/-! ### All steps -/

theorem find?_cons (step : Step) (rest : List Step) :
    node.find? (step :: rest) = (node.step? step).bind (·.find? rest) := rfl

theorem find?_append (p q : List Step) : node.find? (p ++ q) = (node.find? p).bind (·.find? q) := by
  induction p generalizing node with
  | nil => rfl
  | cons step p ih =>
      rw [List.cons_append, find?_cons, find?_cons]
      cases node.step? step with
      | none => rfl
      | some next => exact ih next

@[simp] theorem find?_blank_cons (step : Step) (rest : List Step) : blank.find? (step :: rest) = none := by
  rw [find?_cons, step?_blank, Option.bind_none]

/-- A node about which nothing is known may stand in for one that is missing. -/
theorem find?_getD_blank {rest : List Step} (hrest : rest ≠ []) (step : Step) :
    ((node.step? step).getD blank).find? rest = node.find? (step :: rest) := by
  rw [find?_cons]
  cases node.step? step with
  | some next => rfl
  | none =>
      obtain ⟨first, others, rfl⟩ := List.exists_cons_of_ne_nil hrest
      exact find?_blank_cons first others

/-- On the way to the inserted node stands what was there, with the rest of the insertion done to it. -/
theorem find?_insert_append (q rest : List Step) :
    (insert definition (q ++ rest) node).find? q =
      some (insert definition rest ((node.find? q).getD blank)) := by
  induction q generalizing node with
  | nil => rfl
  | cons step q ih =>
      rw [List.cons_append, find?_cons, step?_insert_self, Option.bind_some, ih, find?_cons]
      cases node.step? step with
      | some next => rfl
      | none =>
          cases q with
          | nil => rfl
          | cons first q => simp

/-- What clashes with the inserted path is cut off. -/
theorem find?_insert_of_clash {p q : List Step} (h : Clash p q) : (insert definition p node).find? q = none := by
  induction p generalizing node q with
  | nil => exact absurd h (not_clash_nil_left q)
  | cons s p ih =>
      cases q with
      | nil => exact absurd h.symm (not_clash_nil_left _)
      | cons t q =>
          rw [find?_cons]
          rcases clash_cons_cons_iff.mp h with hkind | ⟨rfl, hrest⟩
          · rw [step?_insert_of_isElement_ne definition node hkind.symm, Option.bind_none]
          · rw [step?_insert_self, Option.bind_some]
            exact ih _ hrest

/-- Nodes off the inserted path stay as they are. -/
theorem find?_insert_of_not_isPrefix {p q : List Step} (hpre : ¬q <+: p) (hclash : ¬Clash p q) :
    (insert definition p node).find? q = node.find? q := by
  induction p generalizing node q with
  | nil =>
      cases q with
      | nil => exact absurd List.prefix_rfl hpre
      | cons t q =>
          rw [insert, find?_cons, step?_define]
          rfl
  | cons s p ih =>
      cases q with
      | nil => exact absurd List.nil_prefix hpre
      | cons t q =>
          by_cases hkind : t.isElement = s.isElement
          · by_cases heq : t = s
            · subst heq
              have hq : q ≠ [] := by
                rintro rfl
                exact hpre (List.cons_prefix_cons.mpr ⟨rfl, List.nil_prefix⟩)
              rw [find?_cons, step?_insert_self, Option.bind_some, ih, find?_getD_blank node hq]
              · exact fun h => hpre (List.cons_prefix_cons.mpr ⟨rfl, h⟩)
              · exact fun h => hclash (h.cons t)
            · rw [find?_cons, step?_insert_of_ne definition node heq hkind]
              rfl
          · exact absurd (clash_of_isElement_ne (Ne.symm hkind) p q) hclash

/-- No node is both an object and a list. -/
theorem find?_eq_none_of_clash {node : FieldNode} {p q : List Step} (hp : (node.find? p).isSome)
    (h : Clash p q) : node.find? q = none := by
  obtain ⟨common, s, t, p', q', rfl, rfl, hne⟩ := h
  rw [find?_append] at hp ⊢
  cases hcommon : node.find? common with
  | none => rfl
  | some middle =>
      rw [hcommon, Option.bind_some, find?_cons] at hp
      cases hstep : middle.step? s with
      | none =>
          rw [hstep] at hp
          cases hp
      | some next =>
          rw [Option.bind_some, find?_cons, step?_eq_none_of_isElement_ne hstep hne.symm, Option.bind_none]

theorem isSome_find?_of_isPrefix {node : FieldNode} {p q : List Step} (hp : (node.find? p).isSome)
    (h : q <+: p) : (node.find? q).isSome := by
  obtain ⟨rest, rfl⟩ := h
  rw [find?_append] at hp
  cases hq : node.find? q with
  | none =>
      rw [hq] at hp
      cases hp
  | some middle => rfl

/-! ### Lookups -/

/-- What is known at the end of the steps: nothing if no node is there, else the definition that the
node may have. -/
def lookup? (node : FieldNode) (steps : List Step) : Option (Option FieldDefinition) :=
  (node.find? steps).map definition?

theorem lookup?_insert_of_clash {p q : List Step} (h : Clash p q) :
    (insert definition p node).lookup? q = none := by
  rw [lookup?, find?_insert_of_clash definition node h, Option.map_none]

theorem lookup?_insert_self (p : List Step) : (insert definition p node).lookup? p = some (some definition) := by
  have h := find?_insert_append definition node p []
  rw [List.append_nil] at h
  rw [lookup?, h, Option.map_some, insert, definition?_define]

theorem lookup?_insert_of_isPrefix {p q : List Step} (h : q <+: p) (hne : q ≠ p) :
    (insert definition p node).lookup? q = some ((node.lookup? q).getD none) := by
  obtain ⟨rest, rfl⟩ := h
  obtain ⟨step, rest, rfl⟩ : ∃ step others, rest = step :: others := by
    apply List.exists_cons_of_ne_nil
    rintro rfl
    exact hne (List.append_nil q).symm
  rw [lookup?, find?_insert_append, Option.map_some, definition?_insert_cons, lookup?]
  cases node.find? q <;> rfl

theorem lookup?_insert_of_not_isPrefix {p q : List Step} (hpre : ¬q <+: p) (hclash : ¬Clash p q) :
    (insert definition p node).lookup? q = node.lookup? q := by
  rw [lookup?, find?_insert_of_not_isPrefix definition node hpre hclash, lookup?]

/-- A repeated path changes nothing but its own definition. -/
theorem lookup?_insert_of_isSome {node : FieldNode} {p q : List Step} (hp : (node.lookup? p).isSome)
    (hne : q ≠ p) : (insert definition p node).lookup? q = node.lookup? q := by
  rw [lookup?, Option.isSome_map] at hp
  by_cases hclash : Clash p q
  · rw [lookup?_insert_of_clash _ _ hclash, lookup?, find?_eq_none_of_clash hp hclash, Option.map_none]
  · by_cases hpre : q <+: p
    · rw [lookup?_insert_of_isPrefix _ _ hpre hne]
      obtain ⟨middle, hmiddle⟩ := Option.isSome_iff_exists.mp (isSome_find?_of_isPrefix hp hpre)
      rw [lookup?, hmiddle, Option.map_some, Option.getD_some]
    · exact lookup?_insert_of_not_isPrefix _ _ hpre hclash

end FieldNode

end SurrealZod
