import Mathlib.Data.List.Basic
import SurrealZod.Disk.Path
import SurrealZod.Proofs.Text.NameCharacters

/-! The parts of paths. Below a folder a path has the folder's parts in front. A path that is made of some parts
of another one is not longer than that, so a disk that takes the one takes the other. -/

namespace SurrealZod

namespace Utf8

theorem foldl_utf8Size (t : Text) (bytes : Nat) :
    t.foldl (fun bytes c => bytes + c.utf8Size) bytes = bytes + size t := by
  induction t generalizing bytes with
  | nil => rfl
  | cons c t ih => rw [size, List.foldl_cons, List.foldl_cons, ih, ih (0 + c.utf8Size), Nat.zero_add, Nat.add_assoc]

theorem size_append (s t : Text) : size (s ++ t) = size s + size t := by
  rw [size, List.foldl_append, foldl_utf8Size, ← size]

theorem size_cons_slash (t : Text) : size ('/' :: t) = 1 + size t := size_append ['/'] t

end Utf8

namespace Path

open Utf8

/-! ### Parts -/

/-- The parts of a text that is read as a path. -/
def partsOf (t : Text) : List Text := (t.splitOn '/').filter (!·.isEmpty)

theorem partsOf_append_cons (s t : Text) : partsOf (s ++ '/' :: t) = partsOf s ++ partsOf t := by
  simp only [partsOf, List.splitOn_eq_splitOnP]
  rw [List.splitOnP_append_cons s t (by decide), List.filter_append]

theorem partsOf_of_not_mem {t : Text} (h : '/' ∉ t) : partsOf t = [t].filter (!·.isEmpty) := by
  have hslash : ∀ c ∈ t, (c == '/') = false := fun c hc => beq_false_of_ne fun heq => h (heq ▸ hc)
  rw [partsOf, List.splitOn_eq_splitOnP, List.splitOnP_eq_singleton hslash]

theorem not_isAbsolute {t : Text} (h : '/' ∉ t) : ¬({ text := t } : Path).isAbsolute = true := by
  cases t with
  | nil => decide
  | cons c t =>
      intro habsolute
      have hc : some c = some '/' := of_decide_eq_true habsolute
      exact h (Option.some.inj hc ▸ List.mem_cons_self)

theorem parts_child (base : Path) {more : Text} (h : '/' ∉ more) :
    (base.child more).parts = base.parts ++ [more].filter (!·.isEmpty) := by
  rw [← partsOf_of_not_mem h, child, join, if_neg (not_isAbsolute h)]
  show partsOf _ = partsOf base.text ++ partsOf more
  split
  · rename_i hend
    rcases hend with hempty | hslash
    · have hnil : partsOf [] = [] := rfl
      rw [hempty, hnil, List.nil_append, List.nil_append]
    · obtain ⟨front, hfront⟩ := List.getLast?_eq_some_iff.mp hslash
      have hnil : partsOf [] = [] := rfl
      rw [hfront, partsOf_append_cons, hnil, List.append_nil, ← partsOf_append_cons, List.append_assoc,
        List.singleton_append]
  · exact partsOf_append_cons base.text more

theorem text_child (base : Path) {more : Text} (h : '/' ∉ more) :
    (base.child more).text = (base.child []).text ++ more := by
  have hnil : '/' ∉ ([] : Text) := List.not_mem_nil
  rw [child, child, join, join, if_neg (not_isAbsolute h), if_neg (not_isAbsolute hnil)]
  split
  · rw [List.append_nil]
  · rw [List.append_assoc, List.singleton_append]

theorem parts_ofParts (absolute : Bool) {ps : List Text} (h : ∀ p ∈ ps, p ≠ [] ∧ '/' ∉ p) :
    (ofParts absolute ps).parts = ps := by
  have hjoin : partsOf (Text.join ['/'] ps) = ps := by
    by_cases hempty : ps = []
    · subst hempty
      rfl
    · rw [partsOf, Text.join, List.splitOn_intercalate '/' (fun p hp => (h p hp).2) hempty]
      apply List.filter_eq_self.mpr
      intro p hp
      simpa using (h p hp).1
  show partsOf ((if absolute then ['/'] else []) ++ Text.join ['/'] ps) = ps
  cases absolute with
  | false => exact hjoin
  | true =>
      have hslash : partsOf ('/' :: Text.join ['/'] ps) = [] ++ partsOf (Text.join ['/'] ps) :=
        partsOf_append_cons [] _
      rw [if_pos rfl, List.singleton_append, hslash, hjoin, List.nil_append]

theorem of_mem_parts {path : Path} {part : Text} (h : part ∈ path.parts) : part ≠ [] ∧ '/' ∉ part := by
  obtain ⟨hsplit, hempty⟩ := List.mem_filter.mp h
  constructor
  · rintro rfl
    cases hempty
  · exact fun hslash => (Text.of_mem_splitOn hsplit hslash).2 rfl

/-! ### Limits -/

theorem size_join_cons (p : Text) (ps : List Text) :
    size (Text.join ['/'] (p :: ps)) = size p + if ps = [] then 0 else 1 + size (Text.join ['/'] ps) := by
  cases ps with
  | nil => simp
  | cons q qs =>
      rw [Text.join, List.intercalate_cons_cons, List.append_assoc, List.singleton_append, size_append,
        size_cons_slash, if_neg (List.cons_ne_nil _ _)]

theorem size_join_le {ps qs : List Text} (h : ps.Sublist qs) :
    size (Text.join ['/'] ps) ≤ size (Text.join ['/'] qs) := by
  induction h with
  | slnil => exact Nat.le_refl _
  | @cons ps qs q h ih =>
      rw [size_join_cons]
      by_cases hempty : qs = []
      · subst hempty
        have hzero : size (Text.join ['/'] []) = 0 := rfl
        omega
      · rw [if_neg hempty]
        omega
  | @cons_cons ps qs q h ih =>
      rw [size_join_cons, size_join_cons]
      by_cases hempty : ps = []
      · rw [if_pos hempty]
        omega
      · have hlonger : qs ≠ [] := by
          rintro rfl
          exact hempty (List.sublist_nil.mp h)
        rw [if_neg hempty, if_neg hlonger]
        omega

theorem mem_join_of_mem {c : Char} {p : Text} {ps : List Text} (hp : p ∈ ps) (hc : c ∈ p) :
    c ∈ Text.join ['/'] ps := by
  induction ps with
  | nil => cases hp
  | cons q qs ih =>
      cases qs with
      | nil =>
          rw [List.mem_singleton.mp hp] at hc
          simpa using hc
      | cons r rs =>
          rw [Text.join, List.intercalate_cons_cons]
          rcases List.mem_cons.mp hp with rfl | hp
          · exact List.mem_append_left _ (List.mem_append_left _ hc)
          · exact List.mem_append_right _ (ih hp)

theorem join_le_of_sublist {t : Text} {ps : List Text} (h : ps.Sublist (partsOf t)) :
    size (Text.join ['/'] ps) ≤ size t ∧ ∀ c ∈ Text.join ['/'] ps, c = '/' ∨ c ∈ t := by
  have hpieces : ps.Sublist (t.splitOn '/') := h.trans List.filter_sublist
  have hwhole : Text.join ['/'] (t.splitOn '/') = t := List.intercalate_splitOn '/'
  constructor
  · have hle := size_join_le hpieces
    rwa [hwhole] at hle
  · intro c hc
    obtain hslash | ⟨p, hp, hc⟩ := Text.mem_join hc
    · exact Or.inl hslash
    · refine Or.inr ?_
      rw [← hwhole]
      exact mem_join_of_mem (hpieces.subset hp) hc

/-- The text of a path made of parts of another one is not longer than that, and has no other characters. -/
theorem ofParts_le {path : Path} {ps : List Text} (h : ps.Sublist path.parts) :
    size (ofParts path.isAbsolute ps).text ≤ size path.text ∧
      ∀ c ∈ (ofParts path.isAbsolute ps).text, c = '/' ∨ c ∈ path.text := by
  by_cases habsolute : path.isAbsolute = true
  · obtain ⟨rest, hrest⟩ := List.head?_eq_some_iff.mp (of_decide_eq_true habsolute)
    have hparts : path.parts = partsOf rest := by
      show partsOf path.text = partsOf rest
      rw [hrest]
      exact partsOf_append_cons [] rest
    obtain ⟨hsize, hchars⟩ := join_le_of_sublist (hparts ▸ h)
    rw [ofParts, habsolute, if_pos rfl, hrest, List.singleton_append]
    constructor
    · rw [size_cons_slash, size_cons_slash]
      omega
    · intro c hc
      rcases List.mem_cons.mp hc with rfl | hc
      · exact Or.inl rfl
      · exact (hchars c hc).imp_right (List.mem_cons_of_mem _)
  · rw [ofParts, if_neg habsolute, List.nil_append]
    exact join_le_of_sublist h

theorem check_eq_ok_iff {path : Path} : path.check = .ok () ↔ '\x00' ∉ path.text ∧ size path.text ≤ maxSize := by
  unfold check
  split_ifs with hnul hlong
  · simp [hnul]
  · simpa using fun _ => hlong
  · simpa [hnul] using hlong

/-- What a path takes, the paths on the way take, too. -/
theorem check_ofParts {path : Path} (hcheck : path.check = .ok ()) {ps : List Text} (h : ps.Sublist path.parts) :
    (ofParts path.isAbsolute ps).check = .ok () := by
  obtain ⟨hsize, hchars⟩ := ofParts_le h
  obtain ⟨hnul, hshort⟩ := check_eq_ok_iff.mp hcheck
  refine check_eq_ok_iff.mpr ⟨fun hmem => ?_, by omega⟩
  obtain hslash | hmem := hchars _ hmem
  · exact absurd hslash (by decide)
  · exact hnul hmem

theorem check_child_nil {base : Path} {more : Text} (h : '/' ∉ more) (hcheck : (base.child more).check = .ok ()) :
    (base.child []).check = .ok () := by
  obtain ⟨hnul, hshort⟩ := check_eq_ok_iff.mp hcheck
  rw [text_child base h] at hnul hshort
  rw [size_append] at hshort
  exact check_eq_ok_iff.mpr ⟨fun hmem => hnul (List.mem_append_left _ hmem), by omega⟩

end Path

end SurrealZod
