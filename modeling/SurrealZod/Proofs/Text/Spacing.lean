import Mathlib.Data.List.TakeWhile
import SurrealZod.Proofs.Text.Words

/-! White space between words. Words on two sides of white space have nothing to do with each other, so how much of
it stands between them, and of which kind, does not matter. A text with its semicolons written as words of their own
divides into the words of the pieces between them. -/

namespace SurrealZod.Text

variable {s t : Text} {c : Char}

/-! ### Words -/

theorem words_append_blank (hc : isBlank c = true) (s t : Text) : words (s ++ c :: t) = words s ++ words t := by
  rw [words, words, words, List.splitOnP_append_cons s t hc, List.filter_append]

theorem words_cons_blank (hc : isBlank c = true) (t : Text) : words (c :: t) = words t :=
  words_append_blank hc [] t

/-- What is the same behind one white space character is the same behind many. -/
theorem eq_behind_blanks {α : Type} {f : Text → α} (hf : ∀ c t, isBlank c = true → f (c :: t) = f t)
    (h : ∀ c ∈ s, isBlank c = true) (t : Text) : f (s ++ t) = f t := by
  induction s with
  | nil => rfl
  | cons c s ih =>
      rw [List.cons_append, hf c _ (h c List.mem_cons_self)]
      exact ih fun d hd => h d (List.mem_cons_of_mem _ hd)

theorem words_blanks_append (h : ∀ c ∈ s, isBlank c = true) (t : Text) : words (s ++ t) = words t :=
  eq_behind_blanks (fun _ t hc => words_cons_blank hc t) h t

/-- A character in front of white space or of the end is a word. -/
theorem words_cons_of_end (hc : isBlank c = false) (ht : t = [] ∨ beginsBlank t = true) :
    words (c :: t) = [c] :: words t := by
  cases t with
  | nil => simp [words, List.splitOnP_cons_eq_if_modifyHead, hc]
  | cons d t =>
      have hd : isBlank d = true := ht.resolve_left (List.cons_ne_nil d t)
      rw [words_cons_blank hd, ← List.singleton_append, words_append_blank hd]
      simp [words, List.splitOnP_cons_eq_if_modifyHead, hc]

/-- A character in front of another one that is no white space belongs to the word of that one. -/
theorem words_cons_of_begins (hc : isBlank c = false) (hne : t ≠ []) (ht : beginsBlank t = false) :
    ∃ word rest, words t = word :: rest ∧ words (c :: t) = (c :: word) :: rest := by
  obtain ⟨d, t, rfl⟩ := List.exists_cons_of_ne_nil hne
  have hd : isBlank d = false := ht
  obtain ⟨piece, pieces, hpieces⟩ := List.exists_cons_of_ne_nil (List.splitOnP_ne_nil isBlank t)
  refine ⟨d :: piece, pieces.filter (!·.isEmpty), ?_, ?_⟩
  · simp [words, List.splitOnP_cons_eq_if_modifyHead, hd, hpieces]
  · simp [words, List.splitOnP_cons_eq_if_modifyHead, hc, hd, hpieces]

theorem words_of_not_blank (hne : t ≠ []) (h : ∀ c ∈ t, isBlank c = false) : words t = [t] := by
  rw [words, List.splitOnP_eq_singleton h]
  simp [hne]

/-! ### Single spaces -/

/-- The text with every run of white space written as one space. -/
def singleSpaced : Text → Text
  | [] => []
  | c :: rest =>
    if isBlank c then if beginsBlank rest then singleSpaced rest else ' ' :: singleSpaced rest
    else c :: singleSpaced rest

theorem squeeze_eq_nil_iff : squeeze t = [] ↔ words t = [] := by
  rw [squeeze]
  cases hwords : words t with
  | nil => simp
  | cons word rest =>
      have hmem : word ∈ words t := hwords ▸ List.mem_cons_self
      have hne : word ≠ [] := by simpa using (List.mem_filter.mp hmem).2
      rw [join_cons]
      simp [hne]

theorem squeeze_cons_of_end (hc : isBlank c = false) (ht : t = [] ∨ beginsBlank t = true) :
    squeeze (c :: t) = c :: if words t = [] then [] else ' ' :: squeeze t := by
  rw [squeeze, words_cons_of_end hc ht, squeeze]
  cases words t with
  | nil => rfl
  | cons word rest => rfl

theorem squeeze_cons_of_begins (hc : isBlank c = false) (hne : t ≠ []) (ht : beginsBlank t = false) :
    squeeze (c :: t) = c :: squeeze t := by
  obtain ⟨word, rest, hwords, hcons⟩ := words_cons_of_begins hc hne ht
  rw [squeeze, squeeze, hwords, hcons, join_cons, join_cons, List.cons_append]

theorem trimEnd_cons_blank (hc : isBlank c = true) (t : Text) :
    trimEnd (c :: t) = if trimEnd t = [] then [] else c :: trimEnd t := by
  rw [← List.singleton_append, trimEnd_append]
  split
  · simp [trimEnd, hc]
  · rfl

theorem trimEnd_cons_of_not_blank (hc : isBlank c = false) (t : Text) : trimEnd (c :: t) = c :: trimEnd t := by
  rw [← List.singleton_append, trimEnd_append]
  split
  · rename_i hempty
    have hend : endsBlank [c] = false := hc
    rw [hempty, trimEnd_eq_self hend]
  · rfl

/-- With single spaces, all that trimming at the end leaves in front of the words is one space. -/
theorem trimEnd_singleSpaced (t : Text) : trimEnd (singleSpaced t) =
    if words t = [] then [] else if beginsBlank t then ' ' :: squeeze t else squeeze t := by
  induction t with
  | nil => rfl
  | cons c t ih =>
      rw [singleSpaced]
      cases hc : isBlank c with
      | true =>
          have hbegins : beginsBlank (c :: t) = true := hc
          have hsqueeze : squeeze (c :: t) = squeeze t := by rw [squeeze, words_cons_blank hc, squeeze]
          rw [if_pos rfl, hbegins, hsqueeze, words_cons_blank hc]
          cases ht : beginsBlank t with
          | true => rw [if_pos rfl, ih, ht]
          | false =>
              rw [if_neg Bool.false_ne_true, trimEnd_cons_blank rfl, ih, ht]
              by_cases hwords : words t = []
              · simp [hwords]
              · simp [hwords, squeeze_eq_nil_iff]
      | false =>
          have hbegins : beginsBlank (c :: t) = false := hc
          rw [if_neg Bool.false_ne_true, hbegins, if_neg Bool.false_ne_true, trimEnd_cons_of_not_blank hc, ih]
          by_cases ht : t = [] ∨ beginsBlank t = true
          · rw [words_cons_of_end hc ht, if_neg (List.cons_ne_nil _ _), squeeze_cons_of_end hc ht]
            rcases ht with rfl | ht
            · rfl
            · rw [ht, if_pos rfl]
          · obtain ⟨hne, hnot⟩ := not_or.mp ht
            obtain ⟨word, rest, hwords, hcons⟩ := words_cons_of_begins hc hne (eq_false_of_ne_true hnot)
            rw [hwords, hcons, if_neg (List.cons_ne_nil _ _), if_neg (List.cons_ne_nil _ _),
              eq_false_of_ne_true hnot, if_neg Bool.false_ne_true,
              squeeze_cons_of_begins hc hne (eq_false_of_ne_true hnot)]

theorem trimStart_singleSpaced (t : Text) : trimStart (singleSpaced t) = singleSpaced (trimStart t) := by
  induction t with
  | nil => rfl
  | cons c t ih =>
      rw [singleSpaced]
      cases hc : isBlank c with
      | true =>
          have hdrop : trimStart (c :: t) = trimStart t := List.dropWhile_cons_of_pos hc
          rw [if_pos rfl, hdrop, ← ih]
          split <;> rfl
      | false =>
          have hkeep {s : Text} : trimStart (c :: s) = c :: s := List.dropWhile_cons_of_neg (by simp [hc])
          rw [if_neg Bool.false_ne_true, hkeep, hkeep, singleSpaced, hc, if_neg Bool.false_ne_true]

theorem words_trimStart (t : Text) : words (trimStart t) = words t := by
  have hblank : ∀ c ∈ t.takeWhile isBlank, isBlank c = true := fun _ hc => List.mem_takeWhile_imp hc
  rw [← words_blanks_append hblank, trimStart, List.takeWhile_append_dropWhile]

/-- Single spaces, trimmed off at both ends, are those of the squeezed text. -/
theorem trim_singleSpaced (t : Text) : trim (singleSpaced t) = squeeze t := by
  rw [trim, trimStart_singleSpaced, trimEnd_singleSpaced, words_trimStart, beginsBlank_trimStart,
    if_neg Bool.false_ne_true, squeeze, words_trimStart, ← squeeze]
  split
  · rename_i hwords
    exact (squeeze_eq_nil_iff.mpr hwords).symm
  · rfl

/-! ### Words and semicolons -/

/-- The words of the text, with each semicolon as a word of its own. -/
def tokens (t : Text) : List Text := words (t.flatMap fun c => if c = ';' then [' ', ';', ' '] else [c])

theorem tokens_append_blank (hc : isBlank c = true) (s t : Text) : tokens (s ++ c :: t) = tokens s ++ tokens t := by
  have hne : c ≠ ';' := by
    rintro rfl
    cases hc
  rw [tokens, List.flatMap_append, List.flatMap_cons, if_neg hne, List.singleton_append, words_append_blank hc]
  rfl

theorem tokens_cons_blank (hc : isBlank c = true) (t : Text) : tokens (c :: t) = tokens t :=
  tokens_append_blank hc [] t

theorem tokens_blanks_append (h : ∀ c ∈ s, isBlank c = true) (t : Text) : tokens (s ++ t) = tokens t :=
  eq_behind_blanks (fun _ t hc => tokens_cons_blank hc t) h t

theorem tokens_of_not_mem (h : ';' ∉ t) : tokens t = words t := by
  have hself : t.flatMap (fun c => if c = ';' then [' ', ';', ' '] else [c]) = t := by
    conv_rhs => rw [← List.flatMap_singleton' t]
    refine List.flatMap_congr fun c hc => if_neg ?_
    rintro rfl
    exact h hc
  rw [tokens, hself]

theorem tokens_append_semicolon (s t : Text) : tokens (s ++ ';' :: t) = tokens s ++ ";".toList :: tokens t := by
  have hblank : isBlank ' ' = true := by decide
  rw [tokens, List.flatMap_append, List.flatMap_cons, if_pos rfl]
  show words (_ ++ ' ' :: ([';'] ++ ' ' :: _)) = _
  rw [words_append_blank hblank, words_append_blank hblank, words_of_not_blank (List.cons_ne_nil _ _) (List.forall_mem_singleton.mpr rfl)]
  rfl

theorem semicolon_not_mem_words (h : ';' ∉ t) : ";".toList ∉ words t := by
  intro hmem
  have hrun : ";".toList ∈ t.splitOnP isBlank := (List.mem_filter.mp hmem).1
  exact h (of_mem_splitOnP hrun List.mem_cons_self).1

/-- The tokens between semicolons are the words of the pieces between them. -/
theorem splitOn_tokens (t : Text) : (tokens t).splitOn ";".toList = (t.splitOn ';').map words := by
  have hpieces : ∀ piece ∈ t.splitOn ';', ';' ∉ piece := fun piece hpiece hmem => (of_mem_splitOn hpiece hmem).2 rfl
  have hne : t.splitOn ';' ≠ [] := List.splitOn_ne_nil ';' t
  have hjoin : join [';'] (t.splitOn ';') = t := List.intercalate_splitOn ';'
  conv_lhs => rw [← hjoin]
  generalize t.splitOn ';' = pieces at hpieces hne
  induction pieces with
  | nil => exact absurd rfl hne
  | cons piece rest ih =>
      have hpiece := hpieces piece List.mem_cons_self
      have hsingle := List.splitOn_eq_singleton (semicolon_not_mem_words hpiece)
      cases rest with
      | nil => rw [join, List.intercalate_singleton, tokens_of_not_mem hpiece, hsingle, List.map_singleton]
      | cons next rest =>
          have hrest := ih (fun other hother => hpieces other (List.mem_cons_of_mem _ hother)) (List.cons_ne_nil _ _)
          rw [join, List.intercalate_cons_cons, List.append_assoc, List.singleton_append, tokens_append_semicolon,
            tokens_of_not_mem hpiece, List.splitOn_append_cons_self, hsingle, ← join, hrest]
          rfl

end SurrealZod.Text
