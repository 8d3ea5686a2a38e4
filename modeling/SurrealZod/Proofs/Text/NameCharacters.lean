import SurrealZod.Proofs.Text.LetterCase
import SurrealZod.Proofs.Text.Words
import SurrealZod.Zod.TableName

/-! The characters of names in camel case. The words of a name have letters and numbers only, and a change of
case makes letters of letters. So a stem or a type name has no ASCII character but letters and digits: no
blank, quote, bracket, comma, point or slash, whatever the table is called. -/

namespace SurrealZod.Text

/-- A character of a name: in ASCII, a letter or a digit. -/
def isNameChar (c : Char) : Bool := 0x80 ≤ c.toNat || c.isAlphanum

theorem isNameChar_of_isAlphanumeric {c : Char} (h : isAlphanumeric c = true) : isNameChar c = true := by
  unfold isAlphanumeric at h
  unfold isNameChar
  split at h
  · rw [h, Bool.or_true]
  · rw [decide_eq_true (by omega), Bool.true_or]

/-! ### Changes of case -/

/-- Whether a shifted run has characters of names only. A run that leads into ASCII is a single character. -/
def isNameRun (entry : CodeRun × Int) : Bool :=
  let first := entry.1.first + entry.2
  let last := entry.1.last + entry.2
  0x80 ≤ first && (last < 0xD800 || 0xDFFF < first && last < 0x110000) ||
    entry.1.first = entry.1.last && isNameChar (Char.ofNat first.toNat)

theorem isNameRun_upperShifts : ∀ entry ∈ upperShifts, isNameRun entry = true := by
  decide +kernel

theorem isNameRun_lowerShifts : ∀ entry ∈ lowerShifts, isNameRun entry = true := by
  decide +kernel

theorem isNameChar_shifted {entry : CodeRun × Int} (h : isNameRun entry = true) {code : Nat}
    (hcode : entry.1.has code = true) : isNameChar (Char.ofNat (code + entry.2).toNat) = true := by
  obtain ⟨⟨first, last, step⟩, shift⟩ := entry
  simp only [CodeRun.has, Bool.and_eq_true, decide_eq_true_eq] at hcode
  obtain ⟨⟨hfirst, hlast⟩, -⟩ := hcode
  simp only [isNameRun, Bool.or_eq_true, Bool.and_eq_true, decide_eq_true_eq] at h
  rcases h with ⟨hbeyond, hrange⟩ | ⟨hsingle, hname⟩
  · have hvalid : (code + shift).toNat.isValidChar := by
      rcases hrange with hbelow | ⟨habove, hbelow⟩
      · exact Or.inl (by omega)
      · exact Or.inr ⟨by omega, by omega⟩
    rw [isNameChar, toNat_ofNat_of_isValidChar hvalid, decide_eq_true (by omega), Bool.true_or]
  · have heq : code = first := by omega
    rw [heq]
    exact hname

theorem isNameChar_of_mem_mapCase {expansions : List (Nat × List Nat)} {shifts : List (CodeRun × Int)}
    (hexpansions : ∀ entry ∈ expansions, ∀ code ∈ entry.2, isNameChar (Char.ofNat code) = true)
    (hshifts : ∀ entry ∈ shifts, isNameRun entry = true) {c d : Char} (hc : isNameChar c = true)
    (h : d ∈ mapCase expansions shifts c) : isNameChar d = true := by
  rcases mapCase_cases expansions shifts c with ⟨entry, hentry, heq⟩ | ⟨entry, hentry, hhas, heq⟩ | heq
  · rw [heq] at h
    obtain ⟨code, hcode, rfl⟩ := List.mem_map.mp h
    exact hexpansions entry hentry code hcode
  · rw [heq] at h
    rw [List.mem_singleton.mp h]
    exact isNameChar_shifted (hshifts entry hentry) hhas
  · rw [heq] at h
    rw [List.mem_singleton.mp h]
    exact hc

theorem isNameChar_ascii : ∀ n < 0x80, isNameChar (Char.ofNat n) = true →
    isNameChar (Char.ofNat n).toUpper = true ∧ isNameChar (Char.ofNat n).toLower = true := by
  decide +kernel

theorem isNameChar_of_mem_upperChar {c d : Char} (hc : isNameChar c = true) (h : d ∈ upperChar c) :
    isNameChar d = true := by
  unfold upperChar at h
  split at h
  · rename_i hascii
    have hall := isNameChar_ascii c.toNat hascii
    rw [Char.ofNat_toNat] at hall
    rw [List.mem_singleton.mp h]
    exact (hall hc).1
  · exact isNameChar_of_mem_mapCase (by decide +kernel) isNameRun_upperShifts hc h

theorem isNameChar_of_mem_lowerChar {c d : Char} (hc : isNameChar c = true) (h : d ∈ lowerChar c) :
    isNameChar d = true := by
  unfold lowerChar at h
  split at h
  · rename_i hascii
    have hall := isNameChar_ascii c.toNat hascii
    rw [Char.ofNat_toNat] at hall
    rw [List.mem_singleton.mp h]
    exact (hall hc).2
  · exact isNameChar_of_mem_mapCase (by decide +kernel) isNameRun_lowerShifts hc h

/-! ### Words -/

/-- A text of name characters. -/
def IsName (t : Text) : Prop := ∀ c ∈ t, isNameChar c = true

instance (t : Text) : Decidable (IsName t) := List.decidableBAll _ t

theorem IsName.append {s t : Text} (hs : IsName s) (ht : IsName t) : IsName (s ++ t) :=
  List.forall_mem_append.mpr ⟨hs, ht⟩

theorem IsName.ne_of_mem {t : Text} (h : IsName t) {c d : Char} (hc : c ∈ t) (hd : isNameChar d = false) : c ≠ d := by
  rintro rfl
  exact Bool.false_ne_true (hd.symm.trans (h c hc))

theorem IsName.newline_not_mem {t : Text} (h : IsName t) : '\n' ∉ t := fun hmem => h.ne_of_mem hmem (by decide) rfl

theorem IsName.lowerWord {word : Text} (h : IsName word) : IsName (lowerWord word) := by
  fun_induction Text.lowerWord word with
  | case1 => exact h
  | case2 => decide
  | case3 c hsigma => exact fun d => isNameChar_of_mem_lowerChar (h c List.mem_cons_self)
  | case4 c rest hrest ih =>
      obtain ⟨hc, hrest⟩ := List.forall_mem_cons.mp h
      exact IsName.append (fun d => isNameChar_of_mem_lowerChar hc) (ih hrest)

theorem IsName.capitalize {word : Text} (h : IsName word) : IsName (capitalize word) := by
  cases word with
  | nil => exact h
  | cons c rest =>
      obtain ⟨hc, hrest⟩ := List.forall_mem_cons.mp h
      exact IsName.append (fun d => isNameChar_of_mem_upperChar hc) (IsName.lowerWord hrest)

theorem humps_cons_ne_nil (state : LetterCase) (c : Char) (rest : Text) : humps state (c :: rest) ≠ [] := by
  cases rest with
  | nil => exact List.cons_ne_nil _ _
  | cons next rest =>
      rw [humps]
      split
      · exact List.cons_ne_nil _ _
      · split
        · exact List.cons_ne_nil _ _
        · rw [Ne, List.modifyHead_eq_nil_iff]
          exact humps_cons_ne_nil _ next rest

theorem flatten_modifyHead_cons (c : Char) {words : List Text} (h : words ≠ []) :
    (words.modifyHead (c :: ·)).flatten = c :: words.flatten := by
  obtain ⟨word, rest, rfl⟩ := List.exists_cons_of_ne_nil h
  rfl

/-- Cutting at changes of case loses no character. -/
theorem flatten_humps (state : LetterCase) (piece : Text) : (humps state piece).flatten = piece := by
  fun_induction humps state piece with
  | case1 => rfl
  | case2 => rfl
  | case3 state c next rest hcut ih => rw [List.flatten_cons, ih, List.singleton_append]
  | case4 state c next rest hgo hcut ih =>
      rw [List.flatten_cons, flatten_modifyHead_cons _ (humps_cons_ne_nil _ _ _), ih, List.nil_append]
  | case5 state c next rest hgo hstay ih => rw [flatten_modifyHead_cons _ (humps_cons_ne_nil _ _ _), ih]

theorem isName_of_mem_nameWords {name word : Text} (h : word ∈ nameWords name) : IsName word := by
  obtain ⟨piece, hpiece, hword⟩ := List.mem_flatMap.mp h
  intro c hc
  have hmem : c ∈ piece := by
    rw [← flatten_humps .none piece]
    exact List.mem_flatten.mpr ⟨word, hword, hc⟩
  have halphanumeric := (of_mem_splitOnP hpiece hmem).2
  exact isNameChar_of_isAlphanumeric (by simpa using halphanumeric)

theorem isName_flatMap_capitalize {words : List Text} (h : ∀ word ∈ words, IsName word) :
    IsName (words.flatMap capitalize) := by
  intro c hc
  obtain ⟨word, hword, hc⟩ := List.mem_flatMap.mp hc
  exact (h word hword).capitalize c hc

theorem isName_upperCamel (name : Text) : IsName (upperCamel name) :=
  isName_flatMap_capitalize fun _ => isName_of_mem_nameWords

theorem isName_lowerCamel (name : Text) : IsName (lowerCamel name) := by
  have hwords : ∀ word ∈ nameWords name, IsName word := fun _ => isName_of_mem_nameWords
  unfold lowerCamel
  split
  · decide
  · rename_i word rest heq
    rw [heq] at hwords
    obtain ⟨hfirst, hrest⟩ := List.forall_mem_cons.mp hwords
    exact hfirst.lowerWord.append (isName_flatMap_capitalize hrest)

end SurrealZod.Text
