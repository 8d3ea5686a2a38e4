import SurrealZod.Field.Path
import SurrealZod.Proofs.Text.PaddedParts

/-! The spellings of field paths. Reading a path gives the steps that it spells, whatever marks and white space it is
written with, and each path that gives steps with clean names is one of their spellings. A path that cannot be read has
a blank segment, or begins with the elements of a list. -/

namespace SurrealZod.FieldPath

open Text

/-! ### Marks -/

/-- The mark of a list's elements: nothing, a star or digits in brackets. -/
def IsMark (mark : Text) : Prop :=
  ∃ inner, mark = '[' :: (inner ++ [']']) ∧ (inner = ['*'] ∨ ∀ c ∈ inner, c.isDigit = true)

namespace MarkState

/-- The state behind one more character, and how many marks end with it. -/
def next? : MarkState → Char → Option (MarkState × Nat)
  | .between, c => if c = '[' then some (.opened, 0) else none
  | .opened, c =>
    if c = '*' then some (.star, 0)
    else if c = ']' then some (.between, 1)
    else if c.isDigit then some (.index, 0)
    else none
  | .star, c => if c = ']' then some (.between, 1) else none
  | .index, c => if c = ']' then some (.between, 1) else if c.isDigit then some (.index, 0) else none

/-- What is in front of the reader, from the beginning of the mark in which it stands. -/
inductive Follows : MarkState → Text → Prop where
  | between : Follows .between []
  | opened : Follows .opened ['[']
  | star : Follows .star ['[', '*']
  | index {digits : Text} (h : ∀ c ∈ digits, c.isDigit = true) : Follows .index ('[' :: digits)

/-- A character goes on with the mark in which the reader stands, or ends it. -/
theorem Follows.next {state next : MarkState} {front : Text} {c : Char} {ended : Nat} (h : state.Follows front)
    (hnext : state.next? c = some (next, ended)) :
    ended = 0 ∧ next.Follows (front ++ [c]) ∨ ended = 1 ∧ next = .between ∧ IsMark (front ++ [c]) := by
  cases h with
  | between =>
      obtain ⟨rfl, h⟩ := Option.ite_none_right_eq_some.mp hnext
      cases h
      exact Or.inl ⟨rfl, .opened⟩
  | opened =>
      simp only [next?] at hnext
      split_ifs at hnext with hstar hclose hdigit
      · cases hnext
        exact Or.inl ⟨rfl, hstar ▸ .star⟩
      · cases hnext
        exact Or.inr ⟨rfl, rfl, [], hclose ▸ rfl, Or.inr (List.forall_mem_nil _)⟩
      · cases hnext
        exact Or.inl ⟨rfl, .index (List.forall_mem_singleton.mpr hdigit)⟩
  | star =>
      obtain ⟨rfl, h⟩ := Option.ite_none_right_eq_some.mp hnext
      cases h
      exact Or.inr ⟨rfl, rfl, ['*'], rfl, Or.inl rfl⟩
  | @index digits hdigits =>
      simp only [next?] at hnext
      split_ifs at hnext with hclose hdigit
      · cases hnext
        exact Or.inr ⟨rfl, rfl, digits, hclose ▸ rfl, Or.inr hdigits⟩
      · cases hnext
        exact Or.inl ⟨rfl, .index (List.forall_mem_append.mpr ⟨hdigits, List.forall_mem_singleton.mpr hdigit⟩)⟩

end MarkState

theorem countMarks_nil (state : MarkState) : countMarks state [] = if state = .between then some 0 else none := by
  cases state <;> rfl

theorem countMarks_cons (state : MarkState) (c : Char) (t : Text) :
    countMarks state (c :: t) =
      (state.next? c).bind fun result => (countMarks result.1 t).map (· + result.2) := by
  cases state <;> simp only [MarkState.next?] <;> split_ifs <;> simp_all [countMarks]

/-- A text with a count of marks consists of marks, the first of which may have begun in front of it. -/
theorem exists_marks_of_countMarks {state : MarkState} {t : Text} {count : Nat}
    (h : countMarks state t = some count) {front : Text} (hfront : state.Follows front) :
    ∃ marks : List Text, (∀ mark ∈ marks, IsMark mark) ∧ front ++ t = marks.flatten ∧ marks.length = count := by
  -- What is in front grows along the text until a mark ends with it, and begins anew behind this mark.
  induction t generalizing state count front with
  | nil =>
      rw [countMarks_nil, Option.ite_none_right_eq_some] at h
      obtain ⟨rfl, h⟩ := h
      cases h
      cases hfront
      exact ⟨[], List.forall_mem_nil _, rfl, rfl⟩
  | cons c t ih =>
      rw [countMarks_cons] at h
      obtain ⟨⟨next, ended⟩, hnext, h⟩ := Option.bind_eq_some_iff.mp h
      obtain ⟨others, hothers, rfl⟩ := Option.map_eq_some_iff.mp h
      rcases hfront.next hnext with ⟨rfl, hfollows⟩ | ⟨rfl, rfl, hmark⟩
      · obtain ⟨marks, hmarks, hflatten, hlength⟩ := ih hothers hfollows
        exact ⟨marks, hmarks, by rw [← hflatten, List.append_assoc, List.singleton_append], hlength⟩
      · obtain ⟨marks, hmarks, hflatten, hlength⟩ := ih hothers .between
        refine ⟨(front ++ [c]) :: marks, List.forall_mem_cons.mpr ⟨hmark, hmarks⟩, ?_, ?_⟩
        · rw [List.flatten_cons, ← hflatten, List.nil_append, List.append_assoc, List.singleton_append]
        · rw [List.length_cons, hlength]

theorem next?_of_isDigit {c : Char} (h : c.isDigit = true) :
    MarkState.next? .opened c = some (.index, 0) ∧ MarkState.next? .index c = some (.index, 0) := by
  have hstar : c ≠ '*' := by
    rintro rfl
    cases h
  have hclose : c ≠ ']' := by
    rintro rfl
    cases h
  simp only [MarkState.next?, if_neg hstar, if_neg hclose, if_pos h, and_self]

theorem countMarks_digits {digits : Text} (h : ∀ c ∈ digits, c.isDigit = true) :
    countMarks .index (digits ++ [']']) = some 1 := by
  induction digits with
  | nil => rfl
  | cons c digits ih =>
      obtain ⟨hc, hdigits⟩ := List.forall_mem_cons.mp h
      rw [List.cons_append, countMarks_cons, (next?_of_isDigit hc).2, Option.bind_some, ih hdigits]
      rfl

theorem countMarks_mark {mark : Text} (h : IsMark mark) : countMarks .between mark = some 1 := by
  obtain ⟨inner, rfl, rfl | hdigits⟩ := h
  · rfl
  · show countMarks .opened (inner ++ [']']) = some 1
    cases inner with
    | nil => rfl
    | cons c digits =>
        obtain ⟨hc, hrest⟩ := List.forall_mem_cons.mp hdigits
        rw [List.cons_append, countMarks_cons, (next?_of_isDigit hc).1, Option.bind_some, countMarks_digits hrest]
        rfl

theorem isMark_iff {mark : Text} : IsMark mark ↔ countMarks .between mark = some 1 := by
  constructor
  · exact countMarks_mark
  · intro h
    obtain ⟨marks, hmarks, hflatten, hlength⟩ := exists_marks_of_countMarks h .between
    obtain ⟨other, rfl⟩ := List.length_eq_one_iff.mp hlength
    rw [List.nil_append, List.flatten_singleton] at hflatten
    exact hflatten ▸ hmarks other List.mem_cons_self

instance (mark : Text) : Decidable (IsMark mark) := decidable_of_iff _ isMark_iff.symm

theorem countMarks_append_mark (state : MarkState) (t : Text) {mark : Text} (hmark : IsMark mark) :
    countMarks state (t ++ mark) = (countMarks state t).map (· + 1) := by
  induction t generalizing state with
  | nil =>
      rw [List.nil_append, countMarks_nil]
      split
      · rename_i hstate
        rw [hstate, countMarks_mark hmark, Option.map_some]
      · rename_i hstate
        -- Inside a mark no other one begins.
        obtain ⟨inner, rfl, -⟩ := hmark
        cases state with
        | between => exact absurd rfl hstate
        | _ => rfl
  | cons c t ih =>
      rw [List.cons_append, countMarks_cons, countMarks_cons, Option.map_bind]
      refine Option.bind_congr fun result _ => ?_
      rw [ih, Option.map_map, Function.comp_apply, Option.map_map]
      exact congrArg (Option.map · _) (funext fun count => Nat.add_right_comm _ _ _)

/-! ### Segments -/

/-- A mark behind a segment is one more of its marks, and nothing else changes. -/
theorem splitMarks_append_mark (segment : Text) {mark : Text} (hmark : IsMark mark) :
    splitMarks (segment ++ mark) = ((splitMarks segment).1, (splitMarks segment).2 + 1) := by
  induction segment with
  | nil =>
      have hnil : splitMarks [] = ([], 0) := rfl
      have hcount := countMarks_mark hmark
      obtain ⟨inner, rfl, -⟩ := hmark
      rw [hnil, List.nil_append, splitMarks, hcount]
  | cons c segment ih =>
      have hcount := countMarks_append_mark .between (c :: segment) hmark
      rw [List.cons_append] at hcount ⊢
      rw [splitMarks, splitMarks, hcount]
      cases countMarks .between (c :: segment) with
      | none => simp only [Option.map_none, ih]
      | some count => rfl

/-- A segment is its name with marks behind it. -/
theorem exists_marks_of_splitMarks (segment : Text) : ∃ marks : List Text, (∀ mark ∈ marks, IsMark mark) ∧
    segment = (splitMarks segment).1 ++ marks.flatten ∧ marks.length = (splitMarks segment).2 := by
  induction segment with
  | nil => exact ⟨[], List.forall_mem_nil _, rfl, rfl⟩
  | cons c segment ih =>
      rw [splitMarks]
      split
      · rename_i hcount
        exact exists_marks_of_countMarks hcount .between
      · obtain ⟨marks, hmarks, hsegment, hlength⟩ := ih
        exact ⟨marks, hmarks, congrArg (c :: ·) hsegment, hlength⟩

/-- The steps of a name with a count of marks behind it. -/
def markedSteps? (name : Text) (count : Nat) : Option (List Step) :=
  if name = [] then if count = 0 then none else some (List.replicate count .element)
  else if name = ['*'] then some (.element :: List.replicate count .element)
  else some (.field name :: List.replicate count .element)

theorem segmentSteps?_eq (segment : Text) :
    segmentSteps? segment = markedSteps? (splitMarks segment).1 (splitMarks segment).2 := by
  rw [segmentSteps?]
  split <;> simp_all [markedSteps?]

theorem markedSteps?_succ {name : Text} {count : Nat} {steps : List Step} (h : markedSteps? name count = some steps) :
    markedSteps? name (count + 1) = some (steps ++ [.element]) := by
  rw [markedSteps?] at h ⊢
  rw [if_neg (Nat.succ_ne_zero count)]
  split_ifs at h ⊢ <;> cases h <;> rw [List.replicate_succ'] <;> rfl

theorem segmentSteps?_append_mark {segment mark : Text} {steps : List Step} (h : segmentSteps? segment = some steps)
    (hmark : IsMark mark) : segmentSteps? (segment ++ mark) = some (steps ++ [.element]) := by
  rw [segmentSteps?_eq] at h ⊢
  rw [splitMarks_append_mark segment hmark]
  exact markedSteps?_succ h

/-- A segment of its own for an element: a star or a mark. -/
def IsElement (segment : Text) : Prop := segment = ['*'] ∨ IsMark segment

theorem segmentSteps?_of_isElement {segment : Text} (h : IsElement segment) :
    segmentSteps? segment = some [.element] := by
  rcases h with rfl | hmark
  · rfl
  · have hsplit : splitMarks segment = ([], 1) := splitMarks_append_mark [] hmark
    rw [segmentSteps?_eq, hsplit]
    rfl

/-- A segment is a field or an element, with marks behind it. -/
theorem segmentSteps?_cases {segment : Text} {steps : List Step} (h : segmentSteps? segment = some steps) :
    ∃ (head : Text) (first : Step) (marks : List Text), (first = .field head ∨ first = .element ∧ IsElement head) ∧
      (∀ mark ∈ marks, IsMark mark) ∧ segment = head ++ marks.flatten ∧
      steps = first :: List.replicate marks.length .element := by
  obtain ⟨marks, hmarks, hsegment, hlength⟩ := exists_marks_of_splitMarks segment
  rw [segmentSteps?_eq, ← hlength, markedSteps?] at h
  split_ifs at h with hname hnone hstar
  · -- Nothing is in front of the marks, so the first of them is the element.
    cases marks with
    | nil => exact absurd rfl hnone
    | cons mark marks =>
        obtain ⟨hmark, hmarks⟩ := List.forall_mem_cons.mp hmarks
        cases h
        exact ⟨mark, .element, marks, Or.inr ⟨rfl, Or.inr hmark⟩, hmarks, by rw [hsegment, hname]; rfl, rfl⟩
  · cases h
    exact ⟨['*'], .element, marks, Or.inr ⟨rfl, Or.inl rfl⟩, hmarks, hstar ▸ hsegment, rfl⟩
  · cases h
    exact ⟨(splitMarks segment).1, .field _, marks, Or.inl rfl, hmarks, hsegment, rfl⟩

theorem segmentSteps?_eq_none_iff {segment : Text} : segmentSteps? segment = none ↔ segment = [] := by
  constructor
  · intro h
    obtain ⟨marks, hmarks, hsegment, hlength⟩ := exists_marks_of_splitMarks segment
    rw [segmentSteps?_eq, markedSteps?] at h
    split_ifs at h with hname hcount
    rw [hcount, List.length_eq_zero_iff] at hlength
    rw [hsegment, hname, hlength]
    rfl
  · rintro rfl
    rfl

/-! ### Spellings -/

/-- Whether a text can be a segment between two points and without white space around it. -/
structure IsSegment (segment : Text) : Prop where
  ne_nil : segment ≠ []
  trimmed : trim segment = segment
  dot_not_mem : '.' ∉ segment

/-- A field name that is not taken for anything else. -/
structure IsClean (name : Text) : Prop extends IsSegment name where
  ne_star : name ≠ ['*']
  unmarked : ∀ mark, IsMark mark → ¬mark <:+ name

theorem unmarked_iff {name : Text} : (∀ mark, IsMark mark → ¬mark <:+ name) ↔ (splitMarks name).2 = 0 := by
  constructor
  · intro h
    obtain ⟨marks, hmarks, hname, hlength⟩ := exists_marks_of_splitMarks name
    rcases List.eq_nil_or_concat' marks with rfl | ⟨others, mark, rfl⟩
    · exact hlength.symm
    · rw [List.flatten_concat, ← List.append_assoc] at hname
      exact absurd ⟨_, hname.symm⟩ (h mark (hmarks mark (List.mem_append_right _ List.mem_cons_self)))
  · rintro h mark hmark ⟨front, rfl⟩
    rw [splitMarks_append_mark front hmark] at h
    exact Nat.succ_ne_zero _ h

instance (name : Text) : Decidable (IsClean name) :=
  decidable_of_iff (name ≠ [] ∧ trim name = name ∧ '.' ∉ name ∧ name ≠ ['*'] ∧ (splitMarks name).2 = 0)
    ⟨fun ⟨hne, htrimmed, hdot, hstar, hmarks⟩ => ⟨⟨hne, htrimmed, hdot⟩, hstar, unmarked_iff.mpr hmarks⟩,
      fun h => ⟨h.ne_nil, h.trimmed, h.dot_not_mem, h.ne_star, unmarked_iff.mp h.unmarked⟩⟩

theorem IsClean.segmentSteps? {name : Text} (h : IsClean name) : segmentSteps? name = some [.field name] := by
  obtain ⟨marks, -, hname, hlength⟩ := exists_marks_of_splitMarks name
  rw [unmarked_iff.mp h.unmarked, List.length_eq_zero_iff] at hlength
  rw [hlength, List.flatten_nil, List.append_nil] at hname
  rw [segmentSteps?_eq, ← hname, unmarked_iff.mp h.unmarked, markedSteps?, if_neg h.ne_nil, if_neg h.ne_star]
  rfl

/-- The segments that spell steps: a field is a segment of its own, and an element is one too or a mark behind the
segment in front of it. A path begins with a field. -/
inductive Spells : List Step → List Text → Prop where
  | first {name : Text} (h : IsClean name) : Spells [.field name] [name]
  | field {steps : List Step} {segments : List Text} {name : Text} (hsteps : Spells steps segments)
      (h : IsClean name) : Spells (steps ++ [.field name]) (segments ++ [name])
  | element {steps : List Step} {segments : List Text} {segment : Text} (hsteps : Spells steps segments)
      (h : IsElement segment) : Spells (steps ++ [.element]) (segments ++ [segment])
  | mark {steps : List Step} {segments : List Text} {segment mark : Text}
      (hsteps : Spells steps (segments ++ [segment])) (h : IsMark mark) :
      Spells (steps ++ [.element]) (segments ++ [segment ++ mark])

theorem IsMark.isSegment {mark : Text} (h : IsMark mark) : IsSegment mark := by
  obtain ⟨inner, rfl, hinner⟩ := h
  refine ⟨List.cons_ne_nil _ _, trim_eq_self rfl ?_, ?_⟩
  · rw [← List.cons_append, endsBlank_append _ (List.cons_ne_nil _ _)]
    rfl
  · have hdot : '.' ∉ inner := by
      rcases hinner with rfl | hdigits
      · decide
      · exact fun hmem => absurd (hdigits _ hmem) (by decide)
    simpa using hdot

variable {steps more : List Step} {segments pieces : List Text} {segment mark : Text}

theorem IsElement.isSegment (h : IsElement segment) : IsSegment segment := by
  rcases h with rfl | hmark
  · exact ⟨by decide, by decide, by decide⟩
  · exact hmark.isSegment

theorem IsSegment.append_mark (h : IsSegment segment) (hmark : IsMark mark) : IsSegment (segment ++ mark) := by
  refine ⟨mt List.append_eq_nil_iff.mp fun hnil => h.ne_nil hnil.1, trim_eq_self ?_ ?_, ?_⟩
  · obtain ⟨c, rest, rfl⟩ := List.exists_cons_of_ne_nil h.ne_nil
    have hbegin := beginsBlank_trim (c :: rest)
    rw [h.trimmed] at hbegin
    exact hbegin
  · have hend := endsBlank_trim mark
    rw [hmark.isSegment.trimmed] at hend
    rw [endsBlank_append _ hmark.isSegment.ne_nil, hend]
  · exact fun hmem => (List.mem_append.mp hmem).elim h.dot_not_mem hmark.isSegment.dot_not_mem

namespace Spells

theorem isSegment (h : Spells steps segments) : ∀ segment ∈ segments, IsSegment segment := by
  induction h with
  | first h => exact List.forall_mem_singleton.mpr h.toIsSegment
  | field _ h ih => exact List.forall_mem_append.mpr ⟨ih, List.forall_mem_singleton.mpr h.toIsSegment⟩
  | element _ h ih => exact List.forall_mem_append.mpr ⟨ih, List.forall_mem_singleton.mpr h.isSegment⟩
  | mark _ h ih =>
      obtain ⟨hsegments, hsegment⟩ := List.forall_mem_append.mp ih
      have happend := (List.forall_mem_singleton.mp hsegment).append_mark h
      exact List.forall_mem_append.mpr ⟨hsegments, List.forall_mem_singleton.mpr happend⟩

theorem exists_first (h : Spells steps segments) : ∃ name rest, steps = .field name :: rest := by
  induction h with
  | first _ => exact ⟨_, [], rfl⟩
  | field _ _ ih | element _ _ ih | mark _ _ ih =>
      obtain ⟨name, rest, rfl⟩ := ih
      exact ⟨name, _, List.cons_append⟩

theorem isClean (h : Spells steps segments) {name : Text} (hname : .field name ∈ steps) : IsClean name := by
  induction h with
  | first h =>
      cases List.mem_singleton.mp hname
      exact h
  | field _ h ih =>
      rcases List.mem_append.mp hname with hmem | hmem
      · exact ih hmem
      · cases List.mem_singleton.mp hmem
        exact h
  | element _ _ ih | mark _ _ ih =>
      rcases List.mem_append.mp hname with hmem | hmem
      · exact ih hmem
      · cases List.mem_singleton.mp hmem

end Spells

/-- The sequences of steps that can be spelled: those that begin with a field and have clean names only. -/
theorem exists_spells_iff :
    (∃ segments, Spells steps segments) ↔
      (∃ name rest, steps = .field name :: rest) ∧ ∀ name, .field name ∈ steps → IsClean name := by
  constructor
  · rintro ⟨segments, h⟩
    exact ⟨h.exists_first, fun name => h.isClean⟩
  · rintro ⟨⟨first, rest, rfl⟩, hclean⟩
    induction rest using List.reverseRecOn with
    | nil => exact ⟨_, .first (hclean first List.mem_cons_self)⟩
    | append_singleton rest step ih =>
        rw [← List.cons_append] at hclean ⊢
        obtain ⟨segments, hsegments⟩ := ih fun name hname => hclean name (List.mem_append_left _ hname)
        cases step with
        | field name =>
            exact ⟨_, hsegments.field (hclean name (List.mem_append_right _ List.mem_cons_self))⟩
        | element => exact ⟨_, hsegments.element (Or.inl rfl)⟩

/-! ### Reading spellings -/

theorem allSteps?_cons (piece : Text) (pieces : List Text) : allSteps? (piece :: pieces) =
    (segmentSteps? (trim piece)).bind fun steps => (allSteps? pieces).map (steps ++ ·) := by
  rw [allSteps?]
  cases segmentSteps? (trim piece) <;> cases allSteps? pieces <;> rfl

theorem allSteps?_concat (pieces : List Text) (piece : Text) : allSteps? (pieces ++ [piece]) =
    (allSteps? pieces).bind fun steps => (segmentSteps? (trim piece)).map (steps ++ ·) := by
  induction pieces with
  | nil =>
      rw [List.nil_append, allSteps?_cons]
      cases segmentSteps? (trim piece) <;> simp [allSteps?]
  | cons first pieces ih =>
      rw [List.cons_append, allSteps?_cons, allSteps?_cons, ih]
      cases segmentSteps? (trim first) <;> cases allSteps? pieces <;> cases segmentSteps? (trim piece) <;> simp

theorem allSteps?_map_written (parts : List Padded) :
    allSteps? (parts.map (·.written)) = allSteps? (parts.map (·.text)) := by
  induction parts with
  | nil => rfl
  | cons part parts ih =>
      rw [List.map_cons, List.map_cons, allSteps?_cons, allSteps?_cons, ih, part.trim_written, part.trimmed]

theorem Spells.allSteps? (h : Spells steps segments) : allSteps? segments = some steps := by
  induction h with
  | first h =>
      rw [allSteps?_cons, h.trimmed, h.segmentSteps?]
      rfl
  | field _ h ih =>
      rw [allSteps?_concat, ih, h.trimmed, h.segmentSteps?]
      rfl
  | element _ h ih =>
      rw [allSteps?_concat, ih, h.isSegment.trimmed, segmentSteps?_of_isElement h]
      rfl
  | @mark steps segments segment mark hsteps h ih =>
      have hsegment := hsteps.isSegment segment (List.mem_append_right _ List.mem_cons_self)
      rw [allSteps?_concat, hsegment.trimmed] at ih
      obtain ⟨front, hfront, ih⟩ := Option.bind_eq_some_iff.mp ih
      obtain ⟨last, hlast, rfl⟩ := Option.map_eq_some_iff.mp ih
      calc FieldPath.allSteps? (segments ++ [segment ++ mark])
          = (FieldPath.allSteps? segments).bind fun steps =>
              (FieldPath.segmentSteps? (trim (segment ++ mark))).map (steps ++ ·) := allSteps?_concat _ _
        _ = some (front ++ (last ++ [.element])) := by
            rw [hfront, (hsegment.append_mark h).trimmed, segmentSteps?_append_mark hlast h]
            rfl
        _ = some (front ++ last ++ [.element]) := by rw [List.append_assoc]

theorem splitOn_join_written {parts : List Padded} (hne : parts ≠ []) (h : ∀ part ∈ parts, '.' ∉ part.text) :
    (join ['.'] (parts.map (·.written))).splitOn '.' = parts.map (·.written) := by
  refine List.splitOn_intercalate '.' (fun piece hpiece hdot => ?_) (mt List.map_eq_nil_iff.mp hne)
  obtain ⟨part, hpart, rfl⟩ := List.mem_map.mp hpiece
  rcases List.mem_append.mp hdot with hdot | hdot
  · rcases List.mem_append.mp hdot with hdot | hdot
    · exact absurd (part.blank_before _ hdot) (by decide)
    · exact h part hpart hdot
  · exact absurd (part.blank_after _ hdot) (by decide)

/-! ### Finding spellings -/

theorem Spells.marks (h : Spells steps (segments ++ [segment])) {marks : List Text}
    (hmarks : ∀ mark ∈ marks, IsMark mark) :
    Spells (steps ++ List.replicate marks.length .element) (segments ++ [segment ++ marks.flatten]) := by
  induction marks generalizing steps segment with
  | nil => simpa using h
  | cons mark marks ih =>
      obtain ⟨hmark, hrest⟩ := List.forall_mem_cons.mp hmarks
      have hnext := ih (h.mark hmark) hrest
      rwa [List.append_assoc, List.append_assoc] at hnext

/-- One more segment that can be read is a spelling of its steps. -/
theorem Spells.concat (hsteps : Spells steps segments) (h : segmentSteps? segment = some more)
    (hclean : ∀ name, .field name ∈ more → IsClean name) : Spells (steps ++ more) (segments ++ [segment]) := by
  obtain ⟨head, first, marks, hfirst, hmarks, rfl, rfl⟩ := segmentSteps?_cases h
  rw [← List.singleton_append, ← List.append_assoc]
  refine Spells.marks ?_ hmarks
  rcases hfirst with rfl | ⟨rfl, helement⟩
  · exact hsteps.field (hclean head List.mem_cons_self)
  · exact hsteps.element helement

theorem Spells.append (hsteps : Spells steps segments) (h : FieldPath.allSteps? pieces = some more)
    (hclean : ∀ name, .field name ∈ more → IsClean name) :
    Spells (steps ++ more) (segments ++ pieces.map trim) := by
  induction pieces generalizing steps segments more with
  | nil =>
      cases h
      simpa using hsteps
  | cons piece pieces ih =>
      rw [allSteps?_cons] at h
      obtain ⟨front, hfront, h⟩ := Option.bind_eq_some_iff.mp h
      obtain ⟨others, hothers, rfl⟩ := Option.map_eq_some_iff.mp h
      have hpiece := hsteps.concat hfront fun name hname => hclean name (List.mem_append_left _ hname)
      have hall := ih hpiece hothers fun name hname => hclean name (List.mem_append_right _ hname)
      rwa [List.append_assoc, List.append_assoc] at hall

/-- A segment spells one step for sure, and all the others are elements. -/
theorem exists_cons_of_segmentSteps? (h : segmentSteps? segment = some steps) :
    ∃ first count, steps = first :: List.replicate count .element := by
  obtain ⟨-, first, marks, -, -, -, rfl⟩ := segmentSteps?_cases h
  exact ⟨first, marks.length, rfl⟩

theorem spells_of_allSteps? {name : Text} (h : allSteps? pieces = some (.field name :: more))
    (hclean : ∀ other, .field other ∈ Step.field name :: more → IsClean other) :
    Spells (.field name :: more) (pieces.map trim) := by
  cases pieces with
  | nil => cases h
  | cons piece pieces =>
      rw [allSteps?_cons] at h
      obtain ⟨front, hfront, h⟩ := Option.bind_eq_some_iff.mp h
      obtain ⟨others, hothers, heq⟩ := Option.map_eq_some_iff.mp h
      rw [← heq] at hclean ⊢
      -- The first step comes from the first segment, so this one is a field with marks behind it.
      obtain ⟨head, first, marks, hfirst, hmarks, hpiece, rfl⟩ := segmentSteps?_cases hfront
      cases heq
      obtain hhead | ⟨hhead, -⟩ := hfirst
      · cases hhead
        have hspells : Spells [.field name] ([] ++ [name]) := .first (hclean name List.mem_cons_self)
        have hall := (hspells.marks hmarks).append hothers fun other hother =>
          hclean other (List.mem_append_right _ hother)
        rwa [List.nil_append, ← hpiece] at hall
      · cases hhead

theorem steps?_eq_some_iff {path : Text} : steps? path = some steps ↔
    allSteps? (path.splitOn '.') = some steps ∧ ∃ name rest, steps = .field name :: rest := by
  rw [steps?]
  split
  · rename_i name rest hall
    rw [hall]
    constructor
    · intro h
      exact ⟨h, name, rest, (Option.some.inj h).symm⟩
    · exact And.left
  · rename_i hnot
    constructor
    · intro h
      cases h
    · rintro ⟨hall, name, rest, rfl⟩
      exact absurd hall (hnot name rest)

/-- The paths that give steps with clean names are the spellings of these steps, their segments with white space around
them. -/
theorem steps?_eq_some_iff_spells {path : Text} :
    (steps? path = some steps ∧ ∀ name, .field name ∈ steps → IsClean name) ↔
      ∃ parts : List Padded, path = join ['.'] (parts.map (·.written)) ∧ Spells steps (parts.map (·.text)) := by
  rw [steps?_eq_some_iff]
  constructor
  · rintro ⟨⟨hall, name, rest, rfl⟩, hclean⟩
    have hpath : join ['.'] (path.splitOn '.') = path := List.intercalate_splitOn '.'
    have hspells := spells_of_allSteps? hall hclean
    choose part hwritten htext using Padded.exists_written_eq
    have hparts : ((path.splitOn '.').map part).map (·.written) = path.splitOn '.' := by
      rw [List.map_map]
      exact List.map_id'' hwritten _
    have htexts : ((path.splitOn '.').map part).map (·.text) = (path.splitOn '.').map trim := by
      rw [List.map_map]
      exact List.map_congr_left fun piece _ => htext piece
    exact ⟨(path.splitOn '.').map part, by rw [hparts, hpath], by rwa [htexts]⟩
  · rintro ⟨parts, rfl, h⟩
    refine ⟨⟨?_, h.exists_first⟩, fun name => h.isClean⟩
    have hne : parts ≠ [] := by
      rintro rfl
      obtain ⟨name, rest, rfl⟩ := h.exists_first
      cases h.allSteps?
    rw [splitOn_join_written hne, allSteps?_map_written, h.allSteps?]
    exact fun part hpart => (h.isSegment part.text (List.mem_map_of_mem hpart)).dot_not_mem

/-! ### Paths that cannot be read -/

theorem allSteps?_eq_none_iff : allSteps? pieces = none ↔ ∃ piece ∈ pieces, trim piece = [] := by
  induction pieces with
  | nil => simp [allSteps?]
  | cons piece pieces ih =>
      rw [allSteps?_cons, List.exists_mem_cons_iff, ← ih, ← segmentSteps?_eq_none_iff]
      cases segmentSteps? (trim piece) <;> simp

/-- Whether a segment has no name in front of its marks: nothing, or a star. -/
def IsNameless (segment : Text) : Prop :=
  ∃ marks : List Text, (∀ mark ∈ marks, IsMark mark) ∧ (segment = marks.flatten ∨ segment = '*' :: marks.flatten)

theorem segmentSteps?_append_marks (h : segmentSteps? segment = some steps) {marks : List Text}
    (hmarks : ∀ mark ∈ marks, IsMark mark) :
    segmentSteps? (segment ++ marks.flatten) = some (steps ++ List.replicate marks.length .element) := by
  induction marks generalizing segment steps with
  | nil => simpa using h
  | cons mark marks ih =>
      obtain ⟨hmark, hrest⟩ := List.forall_mem_cons.mp hmarks
      have hnext := ih (segmentSteps?_append_mark h hmark) hrest
      rwa [List.append_assoc, List.append_assoc] at hnext

theorem isNameless_iff {first : Step} (h : segmentSteps? segment = some (first :: more)) :
    IsNameless segment ↔ first = .element := by
  constructor
  · rintro ⟨marks, hmarks, rfl | rfl⟩
    · cases marks with
      | nil => cases h
      | cons mark marks =>
          obtain ⟨hmark, hrest⟩ := List.forall_mem_cons.mp hmarks
          rw [List.flatten_cons, segmentSteps?_append_marks (segmentSteps?_of_isElement (Or.inr hmark)) hrest] at h
          cases h
          rfl
    · have hstar : segmentSteps? (['*'] ++ marks.flatten) = _ :=
        segmentSteps?_append_marks (segmentSteps?_of_isElement (Or.inl rfl)) hmarks
      rw [List.singleton_append, h] at hstar
      cases hstar
      rfl
  · rintro rfl
    obtain ⟨head, first, marks, hfirst, hmarks, rfl, hsteps⟩ := segmentSteps?_cases h
    cases hsteps
    obtain hfield | ⟨-, rfl | hmark⟩ := hfirst
    · cases hfield
    · exact ⟨marks, hmarks, Or.inr rfl⟩
    · exact ⟨head :: marks, List.forall_mem_cons.mpr ⟨hmark, hmarks⟩, Or.inl rfl⟩

/-- A path cannot be read if a segment is blank, or if there is no name in its first segment. -/
theorem steps?_eq_none_iff {path : Text} : steps? path = none ↔
    (∃ segment ∈ path.splitOn '.', ∀ c ∈ segment, isBlank c = true) ∨
      ∃ segment ∈ (path.splitOn '.').head?, IsNameless (trim segment) := by
  have hblank : (∃ segment ∈ path.splitOn '.', ∀ c ∈ segment, isBlank c = true) ↔
      allSteps? (path.splitOn '.') = none := by
    simp only [allSteps?_eq_none_iff, trim_eq_nil_iff]
  rw [hblank, Option.eq_none_iff_forall_ne_some]
  cases hall : allSteps? (path.splitOn '.') with
  | none =>
      refine iff_of_true (fun steps hsteps => ?_) (Or.inl rfl)
      rw [steps?_eq_some_iff, hall] at hsteps
      cases hsteps.1
  | some steps =>
      obtain ⟨piece, pieces, hpieces⟩ := List.exists_cons_of_ne_nil (List.splitOn_ne_nil '.' path)
      have hcons := hall
      rw [hpieces, allSteps?_cons] at hcons
      obtain ⟨front, hfront, hcons⟩ := Option.bind_eq_some_iff.mp hcons
      obtain ⟨others, -, rfl⟩ := Option.map_eq_some_iff.mp hcons
      obtain ⟨first, count, rfl⟩ := exists_cons_of_segmentSteps? hfront
      -- All segments can be read, so all that counts is the first step.
      have hnameless : (∃ segment ∈ (path.splitOn '.').head?, IsNameless (trim segment)) ↔ first = .element := by
        simp only [hpieces, List.head?_cons, Option.mem_some_iff, exists_eq_left', isNameless_iff hfront]
      rw [hnameless]
      cases first with
      | field name =>
          have hsteps := steps?_eq_some_iff.mpr ⟨hall, name, _, rfl⟩
          exact iff_of_false (fun h => h _ hsteps) (by simp)
      | element =>
          refine iff_of_true (fun steps hsteps => ?_) (Or.inr rfl)
          obtain ⟨hsome, name, rest, rfl⟩ := steps?_eq_some_iff.mp hsteps
          rw [hall] at hsome
          cases hsome

end SurrealZod.FieldPath
