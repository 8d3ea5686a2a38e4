import SurrealZod.Text.Basic

/-!
# Splitting outside of brackets

Type arguments, union variants and list items are separated by a character that may also stand inside a nested
pair of brackets, where it separates nothing. The four kinds of brackets share one depth, quotes do not shield
brackets, and a text may close more brackets than it opens, so the depth is an integer and only depth zero splits.
-/

namespace SurrealZod.Text

def nesting (c : Char) : Int :=
  if c = '<' ∨ c = '(' ∨ c = '[' ∨ c = '{' then 1
  else if c = '>' ∨ c = ')' ∨ c = ']' ∨ c = '}' then -1
  else 0

/-- The pieces between the separators that stand at depth zero, read from a given depth. -/
def pieces (separator : Char) (depth : Int) : Text → List Text
  | [] => [[]]
  | c :: rest =>
    if nesting c = 0 ∧ c = separator ∧ depth = 0 then [] :: pieces separator depth rest
    else (pieces separator (depth + nesting c) rest).modifyHead (c :: ·)

/-- The trimmed pieces between the separators outside of all brackets. -/
def splitTopLevel (separator : Char) (t : Text) : List Text := (pieces separator 0 t).map trim

theorem pieces_ne_nil (separator : Char) (depth : Int) (t : Text) : pieces separator depth t ≠ [] := by
  fun_induction pieces separator depth t <;> simp_all

/-- The pieces and the separators between them make up the text, so nothing is lost or duplicated. -/
theorem join_pieces (separator : Char) (depth : Int) (t : Text) :
    join [separator] (pieces separator depth t) = t := by
  fun_induction pieces separator depth t with
  | case1 => rfl
  | case2 depth c rest h ih =>
    obtain ⟨p, ps, hp⟩ := List.exists_cons_of_ne_nil (pieces_ne_nil separator depth rest)
    rw [hp] at ih ⊢
    rw [join, List.intercalate_cons_cons]
    simp [← ih, h.2.1, join]
  | case3 depth c rest h ih =>
    obtain ⟨p, ps, hp⟩ := List.exists_cons_of_ne_nil (pieces_ne_nil separator (depth + nesting c) rest)
    rw [hp] at ih ⊢
    cases ps with
    | nil => simpa [join] using ih
    | cons q qs =>
      rw [join, List.intercalate_cons_cons] at ih
      rw [List.modifyHead_cons, join, List.intercalate_cons_cons, ← ih]
      simp

theorem length_le_of_mem_pieces {separator : Char} {depth : Int} {t piece : Text}
    (h : piece ∈ pieces separator depth t) : piece.length ≤ t.length := by
  fun_induction pieces separator depth t generalizing piece with
  | case1 => simp_all
  | case2 depth c rest _ ih =>
    rcases List.mem_cons.1 h with rfl | h
    · simp
    · exact Nat.le_succ_of_le (ih h)
  | case3 depth c rest _ ih =>
    obtain ⟨p, ps, hp⟩ := List.exists_cons_of_ne_nil (pieces_ne_nil separator (depth + nesting c) rest)
    rw [hp, List.modifyHead_cons] at h
    rcases List.mem_cons.1 h with rfl | h
    · exact Nat.succ_le_succ (ih (by simp [hp]))
    · exact Nat.le_succ_of_le (ih (by simp [hp, h]))

theorem length_lt_of_mem_pieces {separator : Char} {depth : Int} {t piece : Text}
    (h : piece ∈ pieces separator depth t) (hmany : 1 < (pieces separator depth t).length) :
    piece.length < t.length := by
  fun_induction pieces separator depth t generalizing piece with
  | case1 => simp_all
  | case2 depth c rest _ ih =>
    rcases List.mem_cons.1 h with rfl | h
    · simp
    · exact Nat.lt_succ_of_le (length_le_of_mem_pieces h)
  | case3 depth c rest _ ih =>
    obtain ⟨p, ps, hp⟩ := List.exists_cons_of_ne_nil (pieces_ne_nil separator (depth + nesting c) rest)
    rw [hp, List.modifyHead_cons] at h hmany
    have hlong : 1 < (pieces separator (depth + nesting c) rest).length := by simpa [hp] using hmany
    rcases List.mem_cons.1 h with rfl | h
    · exact Nat.succ_lt_succ (ih (by simp [hp]) hlong)
    · exact Nat.lt_succ_of_lt (ih (by simp [hp, h]) hlong)

theorem length_lt_of_mem_splitTopLevel {separator : Char} {t part : Text}
    (h : part ∈ splitTopLevel separator t) (hmany : 1 < (splitTopLevel separator t).length) :
    part.length < t.length := by
  obtain ⟨piece, hpiece, rfl⟩ := List.mem_map.1 h
  have := length_lt_of_mem_pieces hpiece (by simpa [splitTopLevel] using hmany)
  have := length_trim_le piece
  omega

end SurrealZod.Text
