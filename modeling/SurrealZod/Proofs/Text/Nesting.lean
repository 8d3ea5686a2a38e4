import SurrealZod.Proofs.Text.Lexing
import SurrealZod.Proofs.Text.Words
import SurrealZod.Text.Nesting

/-! Texts that close the brackets they open. Such a text leaves the depth behind it as it was in front of it, so it
can stand anywhere in a longer text: what is around it is divided as if it were not there, and in brackets it is
not divided at all. Parts of this kind, joined by a separator that none of them has outside of its brackets, are
read back one by one, whatever white space is put around them. -/

namespace SurrealZod.Text

open Lexical (glue glue_cons_modifyHead glue_nil_cons)

variable {s t : Text} {separator : Char} {depth : Int}

/-! ### Depth -/

/-- How many more brackets a text opens than it closes. -/
def balance : Text → Int
  | [] => 0
  | c :: rest => nesting c + balance rest

theorem balance_append (s t : Text) : balance (s ++ t) = balance s + balance t := by
  induction s with
  | nil => rw [List.nil_append, balance, Int.zero_add]
  | cons c s ih => rw [List.cons_append, balance, ih, balance, Int.add_assoc]

/-- The text closes all brackets it opens, and no others. -/
structure Balanced (t : Text) : Prop where
  nonneg : ∀ front, front <+: t → 0 ≤ balance front
  closed : balance t = 0

theorem balance_eq_zero (h : ∀ c ∈ t, nesting c = 0) : balance t = 0 := by
  induction t with
  | nil => rfl
  | cons c t ih =>
      rw [balance, h c List.mem_cons_self, ih fun d hd => h d (List.mem_cons_of_mem _ hd), Int.add_zero]

theorem balanced_of_forall (h : ∀ c ∈ t, nesting c = 0) : Balanced t where
  nonneg _ hfront := Int.le_of_eq (balance_eq_zero fun c hc => h c (hfront.subset hc)).symm
  closed := balance_eq_zero h

theorem balanced_singleton {c : Char} (h : nesting c = 0) : Balanced [c] :=
  balanced_of_forall (List.forall_mem_singleton.mpr h)

theorem Balanced.append (hs : Balanced s) (ht : Balanced t) : Balanced (s ++ t) where
  nonneg front hfront := by
    obtain ⟨rest, hrest⟩ := hfront
    rcases List.append_eq_append_iff.mp hrest with ⟨more, rfl, -⟩ | ⟨more, rfl, rfl⟩
    · exact hs.nonneg front (List.prefix_append front more)
    · rw [balance_append, hs.closed, Int.zero_add]
      exact ht.nonneg more (List.prefix_append more rest)
  closed := by rw [balance_append, hs.closed, ht.closed, Int.add_zero]

theorem Balanced.angled (h : Balanced t) : Balanced ('<' :: (t ++ ['>'])) where
  nonneg front hfront := by
    have hopen : nesting '<' = 1 := by decide
    rcases List.prefix_cons_iff.mp hfront with rfl | ⟨inside, rfl, hinside⟩
    · exact Int.le_refl 0
    · rw [balance, hopen]
      rcases List.prefix_concat_iff.mp hinside with rfl | hinside
      · rw [balance_append, h.closed]
        decide
      · have hnonneg := h.nonneg inside hinside
        omega
  closed := by
    rw [balance, balance_append, h.closed]
    decide

/-! ### Division -/

theorem glue_cons_nil {pieces : List Text} (h : pieces ≠ []) (more : List Text) :
    glue pieces ([] :: more) = pieces ++ more := by
  induction pieces with
  | nil => exact absurd rfl h
  | cons piece rest ih =>
      cases rest with
      | nil => simp [glue]
      | cons next rest => rw [glue, ih (List.cons_ne_nil _ _), List.cons_append, List.cons_append, List.cons_append]

/-- The last piece of a text goes on in the text behind it, at the depth that the first one leaves. -/
theorem pieces_append (separator : Char) (depth : Int) (s t : Text) :
    pieces separator depth (s ++ t) =
      glue (pieces separator depth s) (pieces separator (depth + balance s) t) := by
  induction s generalizing depth with
  | nil =>
      obtain ⟨piece, rest, hpieces⟩ := List.exists_cons_of_ne_nil (pieces_ne_nil separator depth t)
      rw [List.nil_append, balance, Int.add_zero, pieces, hpieces]
      rfl
  | cons c s ih =>
      rw [List.cons_append, pieces, pieces, balance, ← Int.add_assoc]
      split
      · rename_i hcut
        rw [ih, hcut.1, Int.add_zero, glue_nil_cons _ _ (pieces_ne_nil separator depth s)]
      · rw [ih, glue_cons_modifyHead _ _ _ (pieces_ne_nil separator (depth + nesting c) s)]

/-- The separator stands nowhere in the text outside of brackets. -/
def Uncut (separator : Char) (t : Text) : Prop := pieces separator 0 t = [t]

instance (separator : Char) (t : Text) : Decidable (Uncut separator t) := inferInstanceAs (Decidable (_ = _))

theorem pieces_eq_singleton (h : ∀ front, front <+: t → 0 < depth + balance front) :
    pieces separator depth t = [t] := by
  induction t generalizing depth with
  | nil => rfl
  | cons c t ih =>
      have hdepth : 0 < depth := by simpa [balance] using h [] List.nil_prefix
      rw [pieces, if_neg fun hcut => Int.ne_of_gt hdepth hcut.2.2, ih, List.modifyHead_cons]
      intro front hfront
      have hlonger := h (c :: front) (List.cons_prefix_cons.mpr ⟨rfl, hfront⟩)
      rwa [balance, ← Int.add_assoc] at hlonger

/-- In brackets no separator counts. -/
theorem Balanced.pieces_of_pos (h : Balanced t) (hdepth : 0 < depth) : pieces separator depth t = [t] :=
  pieces_eq_singleton fun front hfront => by
    have hnonneg := h.nonneg front hfront
    omega

theorem Balanced.uncut_angled (h : Balanced t) (separator : Char) : Uncut separator ('<' :: (t ++ ['>'])) := by
  have hopen : nesting '<' = 1 := by decide
  have hclose : nesting '>' = -1 := by decide
  rw [Uncut, pieces, if_neg (by rw [hopen]; omega), pieces_append, h.pieces_of_pos (by rw [hopen]; decide), pieces,
    if_neg (by rw [hclose]; omega), pieces]
  rfl

theorem pieces_of_forall_ne (h : ∀ c ∈ t, c ≠ separator) (depth : Int) : pieces separator depth t = [t] := by
  induction t generalizing depth with
  | nil => rfl
  | cons c t ih =>
      rw [pieces, if_neg fun hcut => h c List.mem_cons_self hcut.2.1, ih fun d hd => h d (List.mem_cons_of_mem _ hd),
        List.modifyHead_cons]

theorem Uncut.append (hs : Uncut separator s) (hclosed : balance s = 0) (ht : Uncut separator t) :
    Uncut separator (s ++ t) := by
  rw [Uncut, pieces_append, hclosed, Int.add_zero, hs, ht]
  rfl

/-- A text that is divided is divided first behind a part that closes its brackets. -/
theorem exists_cut (h : pieces separator depth t ≠ [t]) : ∃ front behind, t = front ++ separator :: behind ∧
    nesting separator = 0 ∧ pieces separator depth front = [front] ∧ depth + balance front = 0 := by
  induction t generalizing depth with
  | nil => exact absurd rfl h
  | cons c t ih =>
      rw [pieces] at h
      split at h
      · rename_i hcut
        obtain ⟨hseparator, rfl, rfl⟩ := hcut
        exact ⟨[], t, rfl, hseparator, rfl, rfl⟩
      · rename_i hkeep
        have hrest : pieces separator (depth + nesting c) t ≠ [t] := by
          intro heq
          rw [heq] at h
          exact h rfl
        obtain ⟨front, behind, rfl, hseparator, hfront, hbalance⟩ := ih hrest
        refine ⟨c :: front, behind, rfl, hseparator, ?_, ?_⟩
        · rw [pieces, if_neg hkeep, hfront, List.modifyHead_cons]
        · rw [balance, ← Int.add_assoc, hbalance]

theorem pieces_append_separator (hseparator : nesting separator = 0) (hs : balance s = 0) (t : Text) :
    pieces separator 0 (s ++ separator :: t) = pieces separator 0 s ++ pieces separator 0 t := by
  have hcut : pieces separator 0 (separator :: t) = [] :: pieces separator 0 t := by
    rw [pieces, if_pos ⟨hseparator, rfl, rfl⟩]
  rw [pieces_append, hs, Int.add_zero, hcut, glue_cons_nil (pieces_ne_nil separator 0 s)]

/-- The parts between separators are read back. -/
theorem pieces_join (hseparator : nesting separator = 0) {parts : List Text} (hne : parts ≠ [])
    (h : ∀ part ∈ parts, Balanced part ∧ Uncut separator part) :
    pieces separator 0 (join [separator] parts) = parts := by
  induction parts with
  | nil => exact absurd rfl hne
  | cons part rest ih =>
      obtain ⟨hbalanced, huncut⟩ := h part List.mem_cons_self
      cases rest with
      | nil => rwa [join, List.intercalate_singleton]
      | cons next rest =>
          have hrest := ih (List.cons_ne_nil _ _) fun p hp => h p (List.mem_cons_of_mem _ hp)
          rw [join, List.intercalate_cons_cons, List.append_assoc, List.singleton_append,
            pieces_append_separator hseparator hbalanced.closed, huncut, ← join, hrest, List.singleton_append]

/-! ### White space around the parts -/

theorem nesting_eq_zero_of_isBlank {c : Char} (h : isBlank c = true) : nesting c = 0 := by
  unfold nesting
  split_ifs with hopen hclose
  · rcases hopen with rfl | rfl | rfl | rfl <;> cases h
  · rcases hclose with rfl | rfl | rfl | rfl <;> cases h
  · rfl

theorem ne_of_mem_blanks (hseparator : isBlank separator = false) (h : ∀ c ∈ t, isBlank c = true) :
    ∀ c ∈ t, c ≠ separator := by
  rintro c hc rfl
  rw [h c hc] at hseparator
  cases hseparator

theorem balanced_blanks (h : ∀ c ∈ t, isBlank c = true) : Balanced t :=
  balanced_of_forall fun c hc => nesting_eq_zero_of_isBlank (h c hc)

theorem Balanced.of_trim (h : Balanced (trim t)) : Balanced t := by
  obtain ⟨before, after, hbefore, hafter, ht⟩ := exists_eq_append_trim t
  rw [ht]
  exact ((balanced_blanks hbefore).append h).append (balanced_blanks hafter)

theorem Uncut.pad (hseparator : isBlank separator = false) {before after : Text}
    (hbefore : ∀ c ∈ before, isBlank c = true) (hafter : ∀ c ∈ after, isBlank c = true) (hclosed : balance t = 0)
    (h : Uncut separator t) : Uncut separator (before ++ t ++ after) := by
  have huncut {s : Text} (hs : ∀ c ∈ s, isBlank c = true) : Uncut separator s :=
    pieces_of_forall_ne (ne_of_mem_blanks hseparator hs) 0
  have hbefore' := (balanced_blanks hbefore).closed
  refine ((huncut hbefore).append hbefore' h).append ?_ (huncut hafter)
  rw [balance_append, hbefore', hclosed, Int.add_zero]

theorem Uncut.of_trim (hseparator : isBlank separator = false) (hclosed : balance (trim t) = 0)
    (h : Uncut separator (trim t)) : Uncut separator t := by
  obtain ⟨before, after, hbefore, hafter, ht⟩ := exists_eq_append_trim t
  rw [ht]
  exact h.pad hseparator hbefore hafter hclosed

theorem splitTopLevel_ne_nil (separator : Char) (t : Text) : splitTopLevel separator t ≠ [] := by
  rw [splitTopLevel, Ne, List.map_eq_nil_iff]
  exact pieces_ne_nil separator 0 t

theorem Uncut.splitTopLevel (h : Uncut separator t) : splitTopLevel separator t = [trim t] := by
  rw [Text.splitTopLevel, h, List.map_singleton]

/-- A single part is the whole text. -/
theorem eq_trim_of_splitTopLevel {only : Text} (h : splitTopLevel separator t = [only]) : only = trim t := by
  obtain ⟨piece, hpieces, hpiece⟩ := List.map_eq_singleton_iff.mp h
  have hjoin := join_pieces separator 0 t
  rw [hpieces, join, List.intercalate_singleton] at hjoin
  rw [← hpiece, hjoin]

theorem splitTopLevel_append_separator (hseparator : nesting separator = 0) (hs : balance s = 0) (t : Text) :
    splitTopLevel separator (s ++ separator :: t) = splitTopLevel separator s ++ splitTopLevel separator t := by
  rw [splitTopLevel, pieces_append_separator hseparator hs, List.map_append, ← splitTopLevel, ← splitTopLevel]

theorem splitTopLevel_blanks_append (hseparator : isBlank separator = false) (hs : ∀ c ∈ s, isBlank c = true)
    (t : Text) : splitTopLevel separator (s ++ t) = splitTopLevel separator t := by
  obtain ⟨piece, rest, hpieces⟩ := List.exists_cons_of_ne_nil (pieces_ne_nil separator 0 t)
  have hblanks := pieces_of_forall_ne (ne_of_mem_blanks hseparator hs) 0
  rw [splitTopLevel, splitTopLevel, pieces_append, (balanced_blanks hs).closed, Int.add_zero, hblanks, hpieces, glue,
    List.modifyHead_cons, List.map_cons, List.map_cons, trim_blanks_append hs]

theorem map_trim_glue (hs : ∀ c ∈ s, isBlank c = true) {pieces : List Text} (h : pieces ≠ []) :
    (glue pieces [s]).map trim = pieces.map trim := by
  induction pieces with
  | nil => exact absurd rfl h
  | cons piece rest ih =>
      cases rest with
      | nil => rw [glue, List.modifyHead_cons, List.map_singleton, List.map_singleton, trim_append_blanks piece hs]
      | cons next rest => rw [glue, List.map_cons, ih (List.cons_ne_nil _ _), ← List.map_cons]

theorem splitTopLevel_append_blanks (hseparator : isBlank separator = false) (t : Text)
    (hs : ∀ c ∈ s, isBlank c = true) : splitTopLevel separator (t ++ s) = splitTopLevel separator t := by
  have hblanks := pieces_of_forall_ne (ne_of_mem_blanks hseparator hs) (0 + balance t)
  rw [splitTopLevel, pieces_append, hblanks, map_trim_glue hs (pieces_ne_nil separator 0 t), ← splitTopLevel]

/-- White space around a text is around its first and its last part, where it does not count. -/
theorem splitTopLevel_trim (hseparator : isBlank separator = false) (t : Text) :
    splitTopLevel separator (trim t) = splitTopLevel separator t := by
  obtain ⟨before, after, hbefore, hafter, ht⟩ := exists_eq_append_trim t
  conv_rhs => rw [ht, splitTopLevel_append_blanks hseparator _ hafter, splitTopLevel_blanks_append hseparator hbefore]

end SurrealZod.Text
