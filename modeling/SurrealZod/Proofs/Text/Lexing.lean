import Mathlib.Data.List.Basic
import SurrealZod.Text.Quoted

/-! A lexer of generated code. It knows double-quoted string literals with backslash escapes and three kinds
of brackets, and refuses what could open a literal or a comment of another kind. It cuts a text at the commas
outside of literals and brackets. A text that it reads back to where it began can stand anywhere in code:
inside brackets it changes nothing, and it takes no comma of its surroundings. -/

namespace SurrealZod.Lexical

inductive Bracket where
  | round
  | square
  | curly
  deriving DecidableEq

def Bracket.opening : Bracket → Char
  | round => '('
  | square => '['
  | curly => '{'

def Bracket.closing : Bracket → Char
  | round => ')'
  | square => ']'
  | curly => '}'

inductive Mode where
  | code
  /-- Inside a string literal. -/
  | string
  /-- Inside a string literal, behind a backslash. -/
  | escape
  deriving DecidableEq

/-- Where a lexer stands: its mode, and the brackets that are open, the innermost first. -/
structure State where
  mode : Mode
  opened : List Bracket
  deriving DecidableEq

namespace State

/-- In code and outside of all brackets. -/
def outside : State := { mode := .code, opened := [] }

def opens (state : State) (bracket : Bracket) : State := { state with opened := bracket :: state.opened }

/-- The state behind a closing bracket, which has to be that of the innermost open one. -/
def closes? (state : State) (bracket : Bracket) : Option State :=
  match state.opened with
  | [] => none
  | innermost :: outer => if innermost = bracket then some { state with opened := outer } else none

/-- The state behind one more character. A string literal holds no control characters, and there are no other
quotes, comments or backslashes in code. -/
def next? (state : State) (c : Char) : Option State :=
  match state.mode with
  | .escape => if c.toNat < 0x20 then none else some { state with mode := .string }
  | .string =>
    if c.toNat < 0x20 then none
    else if c = '"' then some { state with mode := .code }
    else if c = '\\' then some { state with mode := .escape }
    else some state
  | .code =>
    match c with
    | '"' => some { state with mode := .string }
    | '\'' | '`' | '/' | '\\' => none
    | '(' => some (state.opens .round)
    | '[' => some (state.opens .square)
    | '{' => some (state.opens .curly)
    | ')' => state.closes? .round
    | ']' => state.closes? .square
    | '}' => state.closes? .curly
    | _ => some state

/-- Reads a text: the pieces between its commas outside of literals and brackets, and the state behind it. -/
def read? (state : State) : Text → Option (List Text × State)
  | [] => some ([[]], state)
  | c :: rest =>
    if state = outside ∧ c = ',' then (read? state rest).map fun result => ([] :: result.1, result.2)
    else
      (state.next? c).bind fun next =>
        (read? next rest).map fun result => (result.1.modifyHead (c :: ·), result.2)

/-- The state behind a text. -/
def after? (state : State) (t : Text) : Option State := (state.read? t).map (·.2)

end State

open State

/-- Whether the lexer reads a text to its end, and all literals and brackets are closed there. -/
def WellFormed (t : Text) : Prop := outside.after? t = some outside

/-- Whether a text is well formed and no comma divides it. -/
def Solid (t : Text) : Prop := outside.read? t = some ([t], outside)

instance (t : Text) : Decidable (WellFormed t) := inferInstanceAs (Decidable (_ = _))

instance (t : Text) : Decidable (Solid t) := inferInstanceAs (Decidable (_ = _))

/-! ### Reading on -/

/-- The pieces of two texts one behind the other. The last piece of the first one goes on in the second. -/
def glue : List Text → List Text → List Text
  | [], more => more
  | [last], more => more.modifyHead (last ++ ·)
  | piece :: next :: rest, more => piece :: glue (next :: rest) more

theorem glue_cons_modifyHead (c : Char) (pieces more : List Text) (h : pieces ≠ []) :
    glue (pieces.modifyHead (c :: ·)) more = (glue pieces more).modifyHead (c :: ·) := by
  obtain ⟨piece, rest, rfl⟩ := List.exists_cons_of_ne_nil h
  cases rest with
  | nil => cases more <;> rfl
  | cons next rest => rfl

theorem glue_nil_cons (pieces more : List Text) (h : pieces ≠ []) :
    glue ([] :: pieces) more = [] :: glue pieces more := by
  obtain ⟨piece, rest, rfl⟩ := List.exists_cons_of_ne_nil h
  rfl

namespace State

theorem pieces_ne_nil {state last : State} {t : Text} {pieces : List Text}
    (h : state.read? t = some (pieces, last)) : pieces ≠ [] := by
  induction t generalizing state pieces with
  | nil =>
      cases h
      exact List.cons_ne_nil _ _
  | cons c t ih =>
      rw [read?] at h
      split at h
      · obtain ⟨result, -, heq⟩ := Option.map_eq_some_iff.mp h
        cases heq
        exact List.cons_ne_nil _ _
      · obtain ⟨next, -, hrest⟩ := Option.bind_eq_some_iff.mp h
        obtain ⟨⟨rest, end'⟩, hread, heq⟩ := Option.map_eq_some_iff.mp hrest
        cases heq
        rw [Ne, List.modifyHead_eq_nil_iff]
        exact ih hread

theorem read?_append (state : State) (s t : Text) :
    state.read? (s ++ t) = (state.read? s).bind fun first =>
      (first.2.read? t).map fun second => (glue first.1 second.1, second.2) := by
  induction s generalizing state with
  | nil =>
      rw [List.nil_append, read?, Option.bind_some]
      cases hread : state.read? t with
      | none => rw [Option.map_none]
      | some result =>
          obtain ⟨more, last⟩ := result
          obtain ⟨piece, rest, rfl⟩ := List.exists_cons_of_ne_nil (pieces_ne_nil hread)
          rfl
  | cons c s ih =>
      rw [List.cons_append, read?, read?]
      split
      · rw [ih]
        cases hread : state.read? s with
        | none => rfl
        | some result =>
            simp only [Option.bind_some, Option.map_some, Option.map_map, Function.comp_def,
              glue_nil_cons _ _ (pieces_ne_nil hread)]
      · cases state.next? c with
        | none => rfl
        | some next =>
            rw [Option.bind_some, Option.bind_some, ih]
            cases hread : next.read? s with
            | none => rfl
            | some result =>
                simp only [Option.bind_some, Option.map_some, Option.map_map, Function.comp_def,
                  glue_cons_modifyHead _ _ _ (pieces_ne_nil hread)]

theorem read?_append_of_eq {state middle last : State} {s t : Text} {pieces more : List Text}
    (hs : state.read? s = some (pieces, middle)) (ht : middle.read? t = some (more, last)) :
    state.read? (s ++ t) = some (glue pieces more, last) := by
  rw [read?_append, hs, Option.bind_some, ht, Option.map_some]

theorem after?_append (state : State) (s t : Text) :
    state.after? (s ++ t) = (state.after? s).bind (·.after? t) := by
  rw [after?, read?_append, after?, Option.map_bind, Option.bind_map]
  refine Option.bind_congr fun first _ => ?_
  rw [Function.comp_apply, Option.map_map]
  rfl

/-! ### Reading inside of brackets -/

/-- The state with more open brackets around it. -/
def within (state : State) (outer : List Bracket) : State := { state with opened := state.opened ++ outer }

variable {state next last : State} {outer : List Bracket}

theorem closes?_within {bracket : Bracket} (h : state.closes? bracket = some next) (outer : List Bracket) :
    (state.within outer).closes? bracket = some (next.within outer) := by
  obtain ⟨mode, opened⟩ := state
  cases opened with
  | nil => cases h
  | cons innermost rest =>
      simp only [closes?, Option.ite_none_right_eq_some] at h
      obtain ⟨rfl, h⟩ := h
      cases h
      exact if_pos rfl

theorem next?_within {c : Char} (h : state.next? c = some next) (outer : List Bracket) :
    (state.within outer).next? c = some (next.within outer) := by
  obtain ⟨mode, opened⟩ := state
  cases mode with
  | code =>
      unfold next? at h ⊢
      dsimp only [within] at h ⊢
      split at h
      all_goals first
        | exact closes?_within h outer
        | cases h <;> rfl
  | string =>
      simp only [next?, within] at h ⊢
      split_ifs at h ⊢ <;> cases h <;> rfl
  | escape =>
      simp only [next?, within] at h ⊢
      split_ifs at h ⊢
      cases h
      rfl

/-- Inside of brackets no comma counts. -/
theorem read?_within (hne : outer ≠ []) {t : Text} (h : state.after? t = some last) :
    (state.within outer).read? t = some ([t], last.within outer) := by
  induction t generalizing state with
  | nil =>
      cases h
      rfl
  | cons c t ih =>
      have hinside : ¬(state.within outer = outside ∧ c = ',') := by
        simp [within, outside, hne]
      obtain ⟨next, hnext, hrest⟩ : ∃ next, state.next? c = some next ∧ next.after? t = some last := by
        rw [after?, read?] at h
        split at h
        · rename_i hcomma
          rw [Option.map_map] at h
          refine ⟨state, ?_, h⟩
          rw [hcomma.1, hcomma.2]
          rfl
        · rw [Option.map_bind, Option.bind_eq_some_iff] at h
          obtain ⟨next, hnext, hread⟩ := h
          rw [Function.comp_apply, Option.map_map] at hread
          exact ⟨next, hnext, hread⟩
      rw [read?, if_neg hinside, next?_within hnext, Option.bind_some, ih hrest]
      rfl

theorem after?_within (outer : List Bracket) {t : Text} (h : state.after? t = some last) :
    (state.within outer).after? t = some (last.within outer) := by
  by_cases hne : outer = []
  · subst hne
    simpa [within] using h
  · rw [after?, read?_within hne h, Option.map_some]

end State

/-! ### Composition -/

variable {s t : Text}

theorem Solid.wellFormed (h : Solid t) : WellFormed t := by
  rw [WellFormed, after?, h, Option.map_some]

theorem WellFormed.append (hs : WellFormed s) (ht : WellFormed t) : WellFormed (s ++ t) := by
  rw [WellFormed, after?_append, hs, Option.bind_some, ht]

theorem Solid.append (hs : Solid s) (ht : Solid t) : Solid (s ++ t) := read?_append_of_eq hs ht

theorem solid_nil : Solid [] := rfl

/-- Whether a text opens brackets and another one closes these. -/
def Encloses (outer : List Bracket) (before after : Text) : Prop :=
  outer ≠ [] ∧ outside.read? before = some ([before], outside.within outer) ∧
    (outside.within outer).read? after = some ([after], outside)

instance (outer : List Bracket) (before after : Text) : Decidable (Encloses outer before after) :=
  inferInstanceAs (Decidable (_ ∧ _))

/-- In brackets a well-formed text is solid, whatever commas it has. -/
theorem WellFormed.solid_enclosed (h : WellFormed t) {outer : List Bracket} {before after : Text}
    (hencloses : Encloses outer before after) : Solid (before ++ t ++ after) := by
  obtain ⟨hne, hbefore, hafter⟩ := hencloses
  exact read?_append_of_eq (read?_append_of_eq hbefore (read?_within hne h)) hafter

theorem wellFormed_join {separator : Text} (hseparator : WellFormed separator) {parts : List Text}
    (h : ∀ part ∈ parts, Solid part) : WellFormed (Text.join separator parts) := by
  induction parts with
  | nil => exact solid_nil.wellFormed
  | cons part rest ih =>
      have hpart := (h part List.mem_cons_self).wellFormed
      cases rest with
      | nil => simpa using hpart
      | cons next rest =>
          rw [Text.join, List.intercalate_cons_cons]
          exact (hpart.append hseparator).append (ih fun p hp => h p (List.mem_cons_of_mem _ hp))

/-- Where pieces end with commas, the lexer finds these pieces, and what is behind the last comma. -/
theorem read?_flatMap_comma {pieces : List Text} (h : ∀ piece ∈ pieces, Solid piece) (hlast : Solid t) :
    outside.read? (pieces.flatMap (· ++ [',']) ++ t) = some (pieces ++ [t], outside) := by
  have hcomma : outside.read? [','] = some ([[], []], outside) := rfl
  induction pieces with
  | nil => exact hlast
  | cons piece rest ih =>
      have hpiece : outside.read? (piece ++ [',']) = some ([piece, []], outside) := by
        rw [read?_append_of_eq (h piece List.mem_cons_self) hcomma]
        simp [glue]
      have hrest := ih fun p hp => h p (List.mem_cons_of_mem _ hp)
      rw [List.flatMap_cons, List.append_assoc, read?_append_of_eq hpiece hrest]
      cases rest <;> simp [glue]

/-- The characters that mean something to the lexer. -/
def marks : Text := ['"', '\'', '`', '/', '\\', '(', '[', '{', ')', ']', '}', ',']

theorem next?_of_not_mem_marks {c : Char} (h : c ∉ marks) : outside.next? c = some outside := by
  simp only [next?, outside]
  split
  all_goals first
    | rfl
    | exact absurd (by decide) h

theorem solid_of_disjoint_marks (h : t.Disjoint marks) : Solid t := by
  induction t with
  | nil => exact solid_nil
  | cons c t ih =>
      obtain ⟨hc, ht⟩ := List.disjoint_cons_left.mp h
      have hcomma : c ≠ ',' := fun heq => hc (heq ▸ by decide)
      rw [Solid, read?, if_neg fun h => hcomma h.2, next?_of_not_mem_marks hc, Option.bind_some, ih ht]
      rfl

/-- Text of characters of a class is solid if the class has no marks. -/
theorem solid_of_forall {p : Char → Bool} (hmarks : marks.all (!p ·) = true) (h : ∀ c ∈ t, p c = true) : Solid t := by
  apply solid_of_disjoint_marks
  intro c hc hmark
  have hnone := List.all_eq_true.mp hmarks c hmark
  rw [h c hc] at hnone
  cases hnone

/-! ### Occurrences -/

/-- Whether a text occurs in the code of another one, outside of its literals. -/
def OccursIn (part t : Text) : Prop :=
  ∃ (before after : Text) (outer : List Bracket), t = before ++ part ++ after ∧
    outside.after? before = some (outside.within outer)

theorem occursIn_self (t : Text) : OccursIn t t := ⟨[], [], [], by simp, rfl⟩

theorem OccursIn.prepend (h : OccursIn s t) (outer : List Bracket) {before : Text}
    (hbefore : outside.after? before = some (outside.within outer)) : OccursIn s (before ++ t) := by
  obtain ⟨front, behind, inner, rfl, hfront⟩ := h
  refine ⟨before ++ front, behind, inner ++ outer, by simp, ?_⟩
  rw [after?_append, hbefore, Option.bind_some, after?_within outer hfront]
  simp [within, outside]

theorem OccursIn.of_isPrefix (h : OccursIn s t) {longer : Text} (hlonger : t <+: longer) : OccursIn s longer := by
  obtain ⟨front, behind, inner, rfl, hfront⟩ := h
  obtain ⟨rest, rfl⟩ := hlonger
  exact ⟨front, behind ++ rest, inner, by simp, hfront⟩

theorem OccursIn.trans {part : Text} (h : OccursIn part s) (hs : OccursIn s t) : OccursIn part t := by
  obtain ⟨before, after, outer, rfl, hbefore⟩ := hs
  exact (h.prepend outer hbefore).of_isPrefix (List.prefix_append _ after)

/-! ### String literals -/

def inLiteral : State := { mode := .string, opened := [] }

theorem read?_inLiteral {c : Char} (hcontrol : ¬c.toNat < 0x20) (hquote : c ≠ '"') (hbackslash : c ≠ '\\') :
    inLiteral.read? [c] = some ([[c]], inLiteral) := by
  have hnext : inLiteral.next? c = some inLiteral := by
    simp only [next?, inLiteral, if_neg hcontrol, if_neg hquote, if_neg hbackslash]
  have hinside : ¬(inLiteral = outside ∧ c = ',') := fun h => absurd h.1 (by decide)
  rw [read?, if_neg hinside, hnext, Option.bind_some]
  rfl

theorem escapeChar_of_not_control {c : Char} (hcontrol : ¬c.toNat < 0x20) (hquote : c ≠ '"')
    (hbackslash : c ≠ '\\') : Text.escapeChar c = [c] := by
  have hne (d : Char) (hd : d.toNat < 0x20) : c ≠ d := fun h => hcontrol (h ▸ hd)
  rw [Text.escapeChar, if_neg hquote, if_neg hbackslash, if_neg (hne _ (by decide)), if_neg (hne _ (by decide)),
    if_neg (hne _ (by decide)), if_neg (hne _ (by decide)), if_neg (hne _ (by decide)), if_neg hcontrol]

/-- Escapes keep a literal from ending early and from holding control characters. -/
theorem read?_escapeChar (c : Char) :
    inLiteral.read? (Text.escapeChar c) = some ([Text.escapeChar c], inLiteral) := by
  by_cases hcontrol : c.toNat < 0x20
  · have hall : ∀ n < 0x20, inLiteral.read? (Text.escapeChar (Char.ofNat n)) =
        some ([Text.escapeChar (Char.ofNat n)], inLiteral) := by decide
    simpa [Char.ofNat_toNat] using hall c.toNat hcontrol
  · by_cases hquote : c = '"'
    · subst hquote
      decide
    · by_cases hbackslash : c = '\\'
      · subst hbackslash
        decide
      · rw [escapeChar_of_not_control hcontrol hquote hbackslash]
        exact read?_inLiteral hcontrol hquote hbackslash

theorem read?_flatMap_escapeChar (t : Text) :
    inLiteral.read? (t.flatMap Text.escapeChar) = some ([t.flatMap Text.escapeChar], inLiteral) := by
  induction t with
  | nil => rfl
  | cons c t ih =>
      rw [List.flatMap_cons]
      exact read?_append_of_eq (read?_escapeChar c) ih

theorem solid_quoted (t : Text) : Solid (Text.quoted t) := by
  have hopening : outside.read? ['"'] = some ([['"']], inLiteral) := by decide
  have hclosing : inLiteral.read? ['"'] = some ([['"']], outside) := by decide
  exact read?_append_of_eq (read?_append_of_eq hopening (read?_flatMap_escapeChar t)) hclosing

end SurrealZod.Lexical
