import SurrealZod.Text.Casing

/-! Keywords in any letter case. The lower case of a text is computed from tables of the whole code space, but the
comparison of it with a keyword sees letters of ASCII only: beyond ASCII no character has a letter of a keyword as its
lower case. The Kelvin sign is the one character that would, so the letter `k` is left out. -/

namespace SurrealZod.Text

variable {c : Char} {t word : Text}

/-- The text with the capital letters of ASCII written small. -/
def asciiLower (t : Text) : Text := t.map Char.toLower

/-- The small letters that are the lower case of letters of ASCII only. -/
def isPlainSmall (c : Char) : Bool := c.isLower && c ≠ 'k'

theorem lt_of_le_ascii {d : Char} (hd : d.toNat < 0x80) (h : c.val ≤ d.val) : c.toNat < 0x80 :=
  Nat.lt_of_le_of_lt (UInt32.le_iff_toNat_le.mp h) hd

theorem isPlainSmall_eq_false (h : 0x80 ≤ c.toNat) : isPlainSmall c = false := by
  have hnot : ¬c.val ≤ 'z'.val := fun hle => Nat.not_lt.mpr h (lt_of_le_ascii (by decide) hle)
  have hlower : c.isLower = false := Bool.and_eq_false_iff.mpr (Or.inr (decide_eq_false hnot))
  rw [isPlainSmall, hlower, Bool.false_and]

theorem toLower_eq_self (h : 0x80 ≤ c.toNat) : c.toLower = c := by
  have hnot : ¬c.val ≤ 'Z'.val := fun hle => Nat.not_lt.mpr h (lt_of_le_ascii (by decide) hle)
  exact dif_neg fun hboth => hnot hboth.2

theorem toNat_ofNat_of_isValidChar {n : Nat} (h : n.isValidChar) : (Char.ofNat n).toNat = n := by
  rw [Char.ofNat, dif_pos h]
  rfl

theorem isPlainSmall_ofNat {n : Nat} (h : 0x80 ≤ n) : isPlainSmall (Char.ofNat n) = false := by
  by_cases hvalid : n.isValidChar
  · apply isPlainSmall_eq_false
    rwa [toNat_ofNat_of_isValidChar hvalid]
  · rw [Char.ofNat, dif_neg hvalid]
    rfl

/-! ### The tables -/

/-- All that the tables can make of a character. -/
theorem mapCase_cases (expansions : List (Nat × List Nat)) (shifts : List (CodeRun × Int)) (c : Char) :
    (∃ entry ∈ expansions, mapCase expansions shifts c = entry.2.map Char.ofNat) ∨
      (∃ entry ∈ shifts, entry.1.has c.toNat = true ∧
        mapCase expansions shifts c = [Char.ofNat (c.toNat + entry.2).toNat]) ∨
      mapCase expansions shifts c = [c] := by
  unfold mapCase
  split
  · rename_i codes hcodes
    obtain ⟨before, after, rfl, -⟩ := List.lookup_eq_some_iff.mp hcodes
    exact Or.inl ⟨_, List.mem_append_right _ List.mem_cons_self, rfl⟩
  · split
    · rename_i run shift hfind
      have hhas := List.find?_some hfind
      exact Or.inr (Or.inl ⟨_, List.mem_of_find?_eq_some hfind, hhas, rfl⟩)
    · exact Or.inr (Or.inr rfl)

/-- Whether a shifted run has no small letter but `k`. A run that leads into ASCII is a single character. -/
def isBeyondRun (entry : CodeRun × Int) : Bool :=
  0x80 ≤ entry.1.first + entry.2 ||
    entry.1.first = entry.1.last && !isPlainSmall (Char.ofNat (entry.1.first + entry.2).toNat)

theorem isBeyondRun_lowerShifts : ∀ entry ∈ lowerShifts, isBeyondRun entry = true := by
  decide +kernel

theorem isPlainSmall_shifted {entry : CodeRun × Int} (h : isBeyondRun entry = true) {code : Nat}
    (hcode : entry.1.has code = true) : isPlainSmall (Char.ofNat (code + entry.2).toNat) = false := by
  obtain ⟨⟨first, last, step⟩, shift⟩ := entry
  simp only [CodeRun.has, Bool.and_eq_true, decide_eq_true_eq] at hcode
  obtain ⟨⟨hfirst, hlast⟩, -⟩ := hcode
  simp only [isBeyondRun, Bool.or_eq_true, Bool.and_eq_true, decide_eq_true_eq] at h
  rcases h with hbeyond | ⟨hsingle, hsmall⟩
  · exact isPlainSmall_ofNat (by omega)
  · have heq : code = first := by omega
    rw [heq]
    simpa using hsmall

theorem exists_mem_lowerChar (h : 0x80 ≤ c.toNat) : ∃ d ∈ lowerChar c, isPlainSmall d = false := by
  have hexpansions : ∀ entry ∈ lowerExpansions, ∃ code ∈ entry.2, isPlainSmall (Char.ofNat code) = false := by
    decide
  rw [lowerChar, if_neg (by omega)]
  rcases mapCase_cases lowerExpansions lowerShifts c with ⟨entry, hentry, heq⟩ | ⟨entry, hentry, hhas, heq⟩ | heq
  · obtain ⟨code, hcode, hsmall⟩ := hexpansions entry hentry
    exact ⟨_, heq ▸ List.mem_map_of_mem hcode, hsmall⟩
  · exact ⟨_, heq ▸ List.mem_cons_self, isPlainSmall_shifted (isBeyondRun_lowerShifts entry hentry) hhas⟩
  · exact ⟨c, heq ▸ List.mem_cons_self, isPlainSmall_eq_false h⟩

/-! ### Keywords -/

/-- A text is a keyword in lower case if it is one in the lower case of ASCII. -/
theorem lower_eq_iff (hword : word.all isPlainSmall = true) : lower t = word ↔ asciiLower t = word := by
  induction t generalizing word with
  | nil => exact Iff.rfl
  | cons c t ih =>
      rw [lower, List.flatMap_cons, ← lower, asciiLower, List.map_cons, ← asciiLower]
      by_cases hascii : c.toNat < 0x80
      · rw [lowerChar, if_pos hascii, List.singleton_append]
        cases word with
        | nil => exact iff_of_false (List.cons_ne_nil _ _) (List.cons_ne_nil _ _)
        | cons d word =>
            obtain ⟨-, hrest⟩ := Bool.and_eq_true_iff.mp hword
            rw [List.cons.injEq, List.cons.injEq, ih hrest]
      · have hbeyond := Nat.not_lt.mp hascii
        rw [toLower_eq_self hbeyond]
        refine iff_of_false ?_ ?_
        · obtain ⟨d, hd, hsmall⟩ := exists_mem_lowerChar hbeyond
          rintro rfl
          rw [List.all_eq_true.mp hword d (List.mem_append_left _ hd)] at hsmall
          cases hsmall
        · rintro rfl
          have hsmall := isPlainSmall_eq_false hbeyond
          rw [List.all_eq_true.mp hword c List.mem_cons_self] at hsmall
          cases hsmall

end SurrealZod.Text
