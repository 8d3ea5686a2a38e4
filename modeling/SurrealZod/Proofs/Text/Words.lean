import Mathlib.Data.List.Basic
import Mathlib.Data.List.TakeWhile
import SurrealZod.Text.Basic

/-! Words and white space. What trimming leaves neither begins nor ends in white space, and a text that does
neither is left as it is. Parts joined by a character that none of them has are read back by splitting. -/

namespace SurrealZod.Text

variable {s t : Text}

def beginsBlank (t : Text) : Bool := t.head?.any isBlank

def endsBlank (t : Text) : Bool := t.getLast?.any isBlank

/-! ### Trimming -/

theorem trimStart_eq_self (h : beginsBlank t = false) : trimStart t = t := by
  cases t with
  | nil => rfl
  | cons c t =>
      rw [trimStart, List.dropWhile_cons_of_neg]
      simpa [beginsBlank] using h

theorem trimEnd_eq_self (h : endsBlank t = false) : trimEnd t = t := by
  have hreverse : beginsBlank t.reverse = false := by rwa [beginsBlank, List.head?_reverse]
  rw [trimEnd, ← trimStart, trimStart_eq_self hreverse, List.reverse_reverse]

theorem trim_eq_self (hbegin : beginsBlank t = false) (hend : endsBlank t = false) : trim t = t := by
  rw [trim, trimStart_eq_self hbegin, trimEnd_eq_self hend]

theorem beginsBlank_trimStart (t : Text) : beginsBlank (trimStart t) = false := by
  have hnot := List.head?_dropWhile_not isBlank t
  rw [beginsBlank, trimStart]
  cases hhead : (t.dropWhile isBlank).head? with
  | none => rfl
  | some c =>
      rw [hhead] at hnot
      exact hnot

theorem endsBlank_trimEnd (t : Text) : endsBlank (trimEnd t) = false := by
  rw [endsBlank, trimEnd, List.getLast?_reverse]
  exact beginsBlank_trimStart t.reverse

theorem trimEnd_isPrefix (t : Text) : trimEnd t <+: t := by
  rw [← List.reverse_suffix, trimEnd, List.reverse_reverse]
  exact List.dropWhile_suffix _

theorem beginsBlank_of_isPrefix (h : s <+: t) (ht : beginsBlank t = false) : beginsBlank s = false := by
  obtain ⟨rest, rfl⟩ := h
  cases s with
  | nil => rfl
  | cons c s => exact ht

theorem beginsBlank_trim (t : Text) : beginsBlank (trim t) = false :=
  beginsBlank_of_isPrefix (trimEnd_isPrefix _) (beginsBlank_trimStart t)

theorem endsBlank_trim (t : Text) : endsBlank (trim t) = false := endsBlank_trimEnd _

theorem trimEnd_append (s t : Text) : trimEnd (s ++ t) = if trimEnd t = [] then trimEnd s else s ++ trimEnd t := by
  simp only [trimEnd, List.reverse_append, List.dropWhile_append, List.reverse_eq_nil_iff, List.isEmpty_iff]
  split <;> simp

theorem trim_space_cons (t : Text) : trim (' ' :: t) = trim t := rfl

/-- What is dropped at the beginning does not make the rest longer. -/
theorem length_trim_le_trimEnd (t : Text) : (trim t).length ≤ (trimEnd t).length := by
  obtain ⟨front, hfront⟩ := List.dropWhile_suffix (l := t) isBlank
  rw [trim, trimStart]
  conv_rhs => rw [← hfront, trimEnd_append]
  split
  · rename_i hempty
    rw [hempty]
    exact Nat.zero_le _
  · rw [List.length_append]
    exact Nat.le_add_left _ _

theorem trim_trim (t : Text) : trim (trim t) = trim t := trim_eq_self (beginsBlank_trim t) (endsBlank_trim t)

theorem trimStart_eq_nil (h : ∀ c ∈ t, isBlank c = true) : trimStart t = [] := List.dropWhile_eq_nil_iff.mpr h

theorem trimEnd_eq_nil (h : ∀ c ∈ t, isBlank c = true) : trimEnd t = [] := by
  rw [trimEnd, List.reverse_eq_nil_iff, List.dropWhile_eq_nil_iff]
  exact fun c hc => h c (List.mem_reverse.mp hc)

theorem trim_blanks_append (h : ∀ c ∈ s, isBlank c = true) (t : Text) : trim (s ++ t) = trim t := by
  rw [trim, trimStart, List.dropWhile_append_of_pos h, ← trimStart, ← trim]

theorem trim_append_blanks (t : Text) (h : ∀ c ∈ s, isBlank c = true) : trim (t ++ s) = trim t := by
  rw [trim, trim, trimStart, List.dropWhile_append, ← trimStart, ← trimStart]
  split
  · rename_i hempty
    rw [trimStart_eq_nil h, List.isEmpty_iff.mp hempty]
  · rw [trimEnd_append, if_pos (trimEnd_eq_nil h)]

theorem trim_concat_space (t : Text) : trim (t ++ [' ']) = trim t :=
  trim_append_blanks t (List.forall_mem_singleton.mpr rfl)

/-- Trimming takes white space away at the two ends and leaves the rest as it is. -/
theorem exists_eq_append_trim (t : Text) : ∃ before after, (∀ c ∈ before, isBlank c = true) ∧
    (∀ c ∈ after, isBlank c = true) ∧ t = before ++ trim t ++ after := by
  refine ⟨t.takeWhile isBlank, ((trimStart t).reverse.takeWhile isBlank).reverse,
    fun c hc => List.mem_takeWhile_imp hc, fun c hc => List.mem_takeWhile_imp (List.mem_reverse.mp hc), ?_⟩
  rw [List.append_assoc, trim, trimEnd, ← List.reverse_append, List.takeWhile_append_dropWhile, List.reverse_reverse,
    trimStart, List.takeWhile_append_dropWhile]

theorem trim_eq_nil_iff : trim t = [] ↔ ∀ c ∈ t, isBlank c = true := by
  constructor
  · intro h
    obtain ⟨before, after, hbefore, hafter, ht⟩ := exists_eq_append_trim t
    rw [h, List.append_nil] at ht
    rw [ht]
    exact List.forall_mem_append.mpr ⟨hbefore, hafter⟩
  · intro h
    rw [trim, trimStart_eq_nil h]
    rfl

theorem exists_eq_trim_append (h : beginsBlank t = false) :
    ∃ after, (∀ c ∈ after, isBlank c = true) ∧ t = trim t ++ after := by
  obtain ⟨before, after, hbefore, hafter, ht⟩ := exists_eq_append_trim t
  cases before with
  | nil => exact ⟨after, hafter, ht⟩
  | cons c before =>
      rw [ht] at h
      exact absurd (hbefore c List.mem_cons_self) (Bool.eq_false_iff.mp h)

theorem trim_of_not_blank (h : ∀ c ∈ t, isBlank c = false) : trim t = t := by
  refine trim_eq_self ?_ ?_
  · rw [beginsBlank]
    cases hhead : t.head? with
    | none => rfl
    | some c => exact h c (List.mem_of_head? hhead)
  · rw [endsBlank]
    cases hlast : t.getLast? with
    | none => rfl
    | some c => exact h c (List.mem_of_getLast? hlast)

theorem endsBlank_append (s : Text) (ht : t ≠ []) : endsBlank (s ++ t) = endsBlank t := by
  obtain ⟨c, hc⟩ := Option.isSome_iff_exists.mp (List.getLast?_isSome.mpr ht)
  rw [endsBlank, endsBlank, List.getLast?_append, hc, Option.some_or]

/-! ### Splitting and joining -/

theorem of_mem_splitOnP {p : Char → Bool} {piece : Text} (h : piece ∈ t.splitOnP p) {c : Char} (hc : c ∈ piece) :
    c ∈ t ∧ p c = false := by
  induction t generalizing piece with
  | nil =>
      rw [List.splitOnP_nil] at h
      rw [List.mem_singleton.mp h] at hc
      cases hc
  | cons d t ih =>
      have htail {piece : Text} (h : piece ∈ t.splitOnP p) (hc : c ∈ piece) : c ∈ d :: t ∧ p c = false :=
        (ih h hc).imp_left (List.mem_cons_of_mem d)
      rw [List.splitOnP_cons_eq_if_modifyHead] at h
      split at h
      · rcases List.mem_cons.mp h with rfl | h
        · cases hc
        · exact htail h hc
      · rename_i hd
        obtain ⟨first, rest, hsplit⟩ := List.exists_cons_of_ne_nil (List.splitOnP_ne_nil p t)
        rw [hsplit, List.modifyHead_cons] at h
        rcases List.mem_cons.mp h with rfl | h
        · rcases List.mem_cons.mp hc with rfl | hc
          · exact ⟨List.mem_cons_self, eq_false_of_ne_true hd⟩
          · exact htail (hsplit ▸ List.mem_cons_self) hc
        · exact htail (hsplit ▸ List.mem_cons_of_mem first h) hc

theorem of_mem_splitOn {separator : Char} {piece : Text} (h : piece ∈ t.splitOn separator) {c : Char}
    (hc : c ∈ piece) : c ∈ t ∧ c ≠ separator := by
  rw [List.splitOn_eq_splitOnP] at h
  exact (of_mem_splitOnP h hc).imp_right fun hnot => by simpa using hnot

theorem join_cons (separator part : Text) (parts : List Text) :
    join separator (part :: parts) = part ++ parts.flatMap (separator ++ ·) := by
  unfold join
  induction parts generalizing part with
  | nil => simp
  | cons next parts ih => rw [List.intercalate_cons_cons, ih, List.flatMap_cons, List.append_assoc, List.append_assoc]

theorem join_append (separator : Text) {parts : List Text} (h : parts ≠ []) (more : List Text) :
    join separator (parts ++ more) = join separator parts ++ more.flatMap (separator ++ ·) := by
  obtain ⟨part, rest, rfl⟩ := List.exists_cons_of_ne_nil h
  rw [List.cons_append, join_cons, join_cons, List.flatMap_append, List.append_assoc]

theorem join_concat (separator last : Text) {parts : List Text} (h : parts ≠ []) :
    join separator (parts ++ [last]) = join separator parts ++ (separator ++ last) := by
  rw [join_append separator h, List.flatMap_singleton]

/-- The characters of joined parts. -/
theorem mem_join {separator c : Char} {parts : List Text} (h : c ∈ join [separator] parts) :
    c = separator ∨ ∃ part ∈ parts, c ∈ part := by
  cases parts with
  | nil => cases h
  | cons part rest =>
      rw [join_cons, List.mem_append, List.mem_flatMap] at h
      rcases h with h | ⟨other, hother, h⟩
      · exact Or.inr ⟨part, List.mem_cons_self, h⟩
      · rcases List.mem_append.mp h with h | h
        · exact Or.inl (List.mem_singleton.mp h)
        · exact Or.inr ⟨other, List.mem_cons_of_mem _ hother, h⟩

theorem splitOn_join (separator : Char) {parts : List Text} (h : parts ≠ []) :
    (join [separator] parts).splitOn separator = parts.flatMap (·.splitOn separator) := by
  induction parts with
  | nil => exact absurd rfl h
  | cons part rest ih =>
      cases rest with
      | nil => simp
      | cons next rest =>
          rw [join, List.intercalate_cons_cons, List.append_assoc, List.singleton_append,
            List.splitOn_append_cons_self, ih (List.cons_ne_nil _ _), ← List.flatMap_cons]

/-! ### Words -/

/-- A text between two spaces of a statement: not empty, and without white space and semicolons. -/
structure IsWord (word : Text) : Prop where
  ne_nil : word ≠ []
  not_blank : ∀ c ∈ word, isBlank c = false
  semicolon_not_mem : ';' ∉ word

instance (word : Text) : Decidable (IsWord word) :=
  decidable_of_iff (word ≠ [] ∧ word.all (!isBlank ·) = true ∧ ';' ∉ word)
    ⟨fun h => ⟨h.1, by simpa using h.2.1, h.2.2⟩,
      fun h => ⟨h.ne_nil, by simpa using h.not_blank, h.semicolon_not_mem⟩⟩

variable {word : Text} {words : List Text}

theorem IsWord.space_not_mem (h : IsWord word) : ' ' ∉ word := fun hmem => absurd (h.not_blank _ hmem) (by decide)

theorem IsWord.beginsBlank (h : IsWord word) : beginsBlank word = false := by
  cases word with
  | nil => rfl
  | cons c rest => exact h.not_blank c List.mem_cons_self

theorem IsWord.endsBlank (h : IsWord word) : endsBlank word = false := by
  obtain ⟨c, hc⟩ := Option.isSome_iff_exists.mp (List.getLast?_isSome.mpr h.ne_nil)
  rw [Text.endsBlank, hc]
  exact h.not_blank c (List.mem_of_getLast? hc)

theorem splitOn_join_words (hwords : ∀ word ∈ words, IsWord word) (hne : words ≠ []) :
    (join [' '] words).splitOn ' ' = words :=
  List.splitOn_intercalate ' ' (fun word hword => (hwords word hword).space_not_mem) hne

theorem getLast?_join_concat (separator : Text) (parts : List Text) {last : Text} (h : last ≠ []) :
    (join separator (parts ++ [last])).getLast? = last.getLast? := by
  obtain ⟨c, hc⟩ := Option.isSome_iff_exists.mp (List.getLast?_isSome.mpr h)
  by_cases hparts : parts = []
  · subst hparts
    simp
  · rw [join_concat _ _ hparts, List.getLast?_append, List.getLast?_append, hc, Option.some_or, Option.some_or]

/-- A text begins like its first word. -/
theorem exists_head?_eq (h : ∀ word ∈ t.splitOn ' ', word ≠ []) : ∃ first ∈ t.splitOn ' ', t.head? = first.head? := by
  obtain ⟨first, rest, hsplit⟩ := List.exists_cons_of_ne_nil (List.splitOn_ne_nil ' ' t)
  obtain ⟨c, tail, rfl⟩ := List.exists_cons_of_ne_nil (h first (hsplit ▸ List.mem_cons_self))
  refine ⟨c :: tail, hsplit ▸ List.mem_cons_self, ?_⟩
  have hjoin : join [' '] (t.splitOn ' ') = t := List.intercalate_splitOn ' '
  rw [hsplit, join_cons] at hjoin
  rw [← hjoin]
  rfl

/-- A text ends like its last word. -/
theorem exists_getLast?_eq (h : ∀ word ∈ t.splitOn ' ', word ≠ []) :
    ∃ last ∈ t.splitOn ' ', t.getLast? = last.getLast? := by
  obtain ⟨front, last, hsplit⟩ := List.eq_nil_or_concat' (t.splitOn ' ') |>.resolve_left (List.splitOn_ne_nil ' ' t)
  have hmem : last ∈ t.splitOn ' ' := hsplit ▸ List.mem_append_right _ List.mem_cons_self
  have hjoin : join [' '] (t.splitOn ' ') = t := List.intercalate_splitOn ' '
  refine ⟨last, hmem, ?_⟩
  rw [← getLast?_join_concat [' '] front (h last hmem), ← hsplit, hjoin]

theorem beginsBlank_of_words (h : ∀ word ∈ t.splitOn ' ', IsWord word) : beginsBlank t = false := by
  obtain ⟨first, hfirst, hhead⟩ := exists_head?_eq fun word hword => (h word hword).ne_nil
  rw [beginsBlank, hhead]
  exact (h first hfirst).beginsBlank

theorem endsBlank_of_words (h : ∀ word ∈ t.splitOn ' ', word ≠ [] ∧ endsBlank word = false) : endsBlank t = false := by
  obtain ⟨last, hlast, heq⟩ := exists_getLast?_eq fun word hword => (h word hword).1
  rw [endsBlank, heq]
  exact (h last hlast).2

theorem getLast?_ne_semicolon (h : ∀ word ∈ t.splitOn ' ', IsWord word) : t.getLast? ≠ some ';' := by
  obtain ⟨last, hlast, heq⟩ := exists_getLast?_eq fun word hword => (h word hword).ne_nil
  rw [heq]
  exact fun hsemicolon => (h last hlast).semicolon_not_mem (List.mem_of_getLast? hsemicolon)

end SurrealZod.Text
