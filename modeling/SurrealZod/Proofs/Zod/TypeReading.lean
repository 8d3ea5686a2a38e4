import Mathlib.Data.List.Find
import SurrealZod.Proofs.Text.Ascending
import SurrealZod.Proofs.Zod.TypeGrammar
import SurrealZod.Zod.FieldType

/-! Reading types. The expression of a type is read off any of its spellings, to any depth. What carries the induction
over a spelling is that it closes its brackets, has no comma outside of them, and is divided at its bars into texts
that are read as the variants are meant. -/

namespace SurrealZod

open Text

namespace TypeVariant

variable {word keyword gap arguments text : Text}

/-! ### Parts of a type -/

/-- What the text of a variant is read as. -/
def read? (text : Text) : Option Fragment := if FieldType.isNone text then .none else some (FieldType.fragment text)

theorem reduceOption_map_read? (variants : List Text) :
    (variants.map read?).reduceOption = (variants.filter (!FieldType.isNone ·)).map FieldType.fragment := by
  induction variants with
  | nil => rfl
  | cons variant rest ih =>
      rw [List.map_cons, read?]
      cases hnone : FieldType.isNone variant with
      | true => rw [if_pos rfl, List.reduceOption_cons_of_none, ih, List.filter_cons_of_neg (by simp [hnone])]
      | false =>
          rw [if_neg Bool.false_ne_true, List.reduceOption_cons_of_some, ih,
            List.filter_cons_of_pos (by simp [hnone]), List.map_cons]

theorem any_map_read? (variants : List Text) :
    (variants.map read?).any (·.all (·.optional)) =
      (variants.any FieldType.isNone ||
        ((variants.filter (!FieldType.isNone ·)).map FieldType.fragment).any (·.optional)) := by
  induction variants with
  | nil => rfl
  | cons variant rest ih =>
      rw [List.map_cons, read?, List.any_cons, ih, List.any_cons]
      cases hnone : FieldType.isNone variant with
      | true => simp
      | false => simp [hnone, Bool.or_left_comm]

theorem ofVariants_eq (variants : List (Option Fragment)) : Fragment.ofVariants variants =
    { expression := FieldType.unionExpression (variants.reduceOption.map (·.expression))
      optional := variants.any fun variant => variant.all (·.optional) } := by
  rw [Fragment.ofVariants]
  match variants.reduceOption with
  | [] => rfl
  | [_] => rfl
  | _ :: _ :: _ => rfl

theorem fragment_of_many (h : 1 < (splitTopLevel '|' text).length) :
    FieldType.fragment text = Fragment.ofVariants ((splitTopLevel '|' text).map read?) := by
  have hbar : isBlank '|' = false := by decide
  rw [FieldType.fragment, splitTopLevel_trim hbar, dif_pos h, ofVariants_eq, reduceOption_map_read?, any_map_read?,
    List.attach_map_val]

theorem not_many (h : Uncut '|' text) : ¬1 < (splitTopLevel '|' (trim text)).length := by
  have hbar : isBlank '|' = false := by decide
  rw [splitTopLevel_trim hbar, h.splitTopLevel]
  exact Nat.lt_irrefl 1

theorem fragment_trim (text : Text) : FieldType.fragment (trim text) = FieldType.fragment text := by
  rw [FieldType.fragment, trim_trim]
  conv_rhs => rw [FieldType.fragment]

/-! ### A keyword with arguments -/

/-- The first opening bracket and the last closing one count. -/
theorem splitAngles?_eq_some {front behind : Text} (hfront : '<' ∉ front) (hbehind : '>' ∉ behind) (inner : Text) :
    FieldType.splitAngles? (front ++ '<' :: (inner ++ '>' :: behind)) = some (front, inner) := by
  have hopen : ∀ c ∈ front, decide (c ≠ '<') = true := fun c hc => decide_eq_true (ne_of_mem_of_not_mem hc hfront)
  have hclose : ∀ c ∈ behind.reverse, decide (c ≠ '>') = true := fun c hc =>
    decide_eq_true (ne_of_mem_of_not_mem (List.mem_reverse.mp hc) hbehind)
  have hdrop : (front ++ '<' :: (inner ++ '>' :: behind)).dropWhile (· ≠ '<') = '<' :: (inner ++ '>' :: behind) := by
    rw [List.dropWhile_append_of_pos hopen]
    rfl
  have htake : (front ++ '<' :: (inner ++ '>' :: behind)).takeWhile (· ≠ '<') = front := by
    rw [List.takeWhile_append_of_pos hopen]
    simp
  have hinner : (inner ++ '>' :: behind).reverse.dropWhile (· ≠ '>') = '>' :: inner.reverse := by
    rw [List.reverse_append, List.reverse_cons, List.append_assoc, List.dropWhile_append_of_pos hclose]
    rfl
  rw [FieldType.splitAngles?, hdrop]
  dsimp only
  rw [hinner, htake]
  dsimp only
  rw [List.reverse_reverse]

theorem not_mem_keyword_gap (hkeyword : IsTypeWord keyword) (hgap : ∀ c ∈ gap, isBlank c = true) :
    '<' ∉ keyword ++ gap := by
  intro hmem
  rcases List.mem_append.mp hmem with hmem | hmem
  · exact hkeyword.ne_of_mem hmem (by decide) rfl
  · exact ne_of_mem_blanks (by decide) hgap _ hmem rfl

theorem nameAndArguments_applied (hkeyword : IsTypeWord keyword) (hgap : ∀ c ∈ gap, isBlank c = true)
    (arguments : Text) :
    FieldType.nameAndArguments (applied keyword gap arguments) = (keyword, splitTopLevel ',' arguments) := by
  rw [FieldType.nameAndArguments, applied,
    splitAngles?_eq_some (not_mem_keyword_gap hkeyword hgap) List.not_mem_nil arguments]
  dsimp only
  rw [trim_append_blanks keyword hgap, hkeyword.trim_eq]

theorem trim_applied (hkeyword : IsTypeWord keyword) (gap arguments : Text) :
    trim (applied keyword gap arguments) = applied keyword gap arguments := by
  refine trim_eq_self ?_ ?_
  · obtain ⟨c, rest, rfl⟩ := List.exists_cons_of_ne_nil hkeyword.ne_nil
    exact (hkeyword.plain c List.mem_cons_self).1
  · rw [applied, ← List.cons_append, ← List.append_assoc, endsBlank_append _ (List.cons_ne_nil _ _)]
    rfl

theorem balanced_applied (hkeyword : IsTypeWord keyword) (hgap : ∀ c ∈ gap, isBlank c = true)
    (harguments : Balanced arguments) : Balanced (applied keyword gap arguments) :=
  (hkeyword.balanced.append (balanced_blanks hgap)).append harguments.angled

theorem uncut_applied (hkeyword : IsTypeWord keyword) (hgap : ∀ c ∈ gap, isBlank c = true)
    (harguments : Balanced arguments) {separator : Char} (hseparator : separator ∈ dividers)
    (hblank : isBlank separator = false) : Uncut separator (applied keyword gap arguments) := by
  have hfront : Uncut separator (keyword ++ gap) :=
    (hkeyword.uncut hseparator).append hkeyword.balanced.closed
      (pieces_of_forall_ne (ne_of_mem_blanks hblank hgap) 0)
  exact hfront.append (hkeyword.balanced.append (balanced_blanks hgap)).closed (harguments.uncut_angled separator)

theorem fragment_applied (hkeyword : IsTypeWord keyword) (hgap : ∀ c ∈ gap, isBlank c = true)
    (hbalanced : Balanced arguments) {first : Text} {rest : List Text}
    (hfirst : splitTopLevel ',' arguments = first :: rest) :
    FieldType.fragment (applied keyword gap arguments) =
      if lower keyword = "option" then { expression := (FieldType.fragment first).expression, optional := true }
      else if FieldType.isArrayName (lower keyword) then
        { expression := Zod.array (FieldType.fragment first).render, optional := false }
      else if lower keyword = "record" then
        { expression := FieldType.recordExpression (some first), optional := false }
      else { expression := FieldType.scalarExpression (lower keyword), optional := false } := by
  have harguments : FieldType.nameAndArguments (trim (applied keyword gap arguments)) = (keyword, first :: rest) := by
    rw [trim_applied hkeyword, nameAndArguments_applied hkeyword hgap, hfirst]
  rw [FieldType.fragment, dif_neg (not_many (uncut_applied hkeyword hgap hbalanced (by decide) (by decide))), harguments]

theorem isNone_eq (text : Text) : FieldType.isNone text = decide (asciiLower text = "none") := by
  rw [FieldType.isNone, decide_eq_decide]
  exact lower_eq_iff (by decide)

theorem isNone_applied (keyword gap arguments : Text) : FieldType.isNone (applied keyword gap arguments) = false := by
  rw [isNone_eq, decide_eq_false_iff_not]
  intro heq
  have hmem : '<' ∈ asciiLower (applied keyword gap arguments) :=
    List.mem_map.mpr ⟨'<', List.mem_append_right _ List.mem_cons_self, by decide⟩
  rw [heq] at hmem
  exact absurd hmem (by decide)

/-! ### Names -/

theorem nameAndArguments_of_not_mem (h : '<' ∉ text) : FieldType.nameAndArguments text = (text, []) := by
  have hnone : text.dropWhile (· ≠ '<') = [] := by
    rw [List.dropWhile_eq_nil_iff]
    intro c hc
    rw [decide_eq_true_eq]
    rintro rfl
    exact h hc
  rw [FieldType.nameAndArguments, FieldType.splitAngles?, hnone]

theorem fragment_word (hword : IsTypeWord word) :
    FieldType.fragment word =
      if lower word = "option" then { expression := Zod.any, optional := true }
      else if FieldType.isArrayName (lower word) then { expression := Zod.array Zod.any, optional := false }
      else if lower word = "record" then { expression := FieldType.recordExpression .none, optional := false }
      else { expression := FieldType.scalarExpression (lower word), optional := false } := by
  have hname : FieldType.nameAndArguments (trim word) = (word, []) := by
    rw [hword.trim_eq]
    exact nameAndArguments_of_not_mem fun hmem => hword.ne_of_mem hmem (by decide) rfl
  rw [FieldType.fragment, dif_neg (not_many (hword.uncut (by decide))), hname]

theorem validator_lower (word : Text) : validator (lower word) = validator (asciiLower word) := by
  have hsmall : ∀ row ∈ validators, ∀ name ∈ row.1, name.all isPlainSmall = true := by decide +kernel
  have hrows : ∀ row ∈ validators, row.1.contains (lower word) = row.1.contains (asciiLower word) := by
    intro row hrow
    rw [Bool.eq_iff_iff, List.contains_iff_mem, List.contains_iff_mem]
    constructor
    · intro hmem
      rwa [(lower_eq_iff (hsmall row hrow _ hmem)).mp rfl]
    · intro hmem
      rwa [(lower_eq_iff (hsmall row hrow _ hmem)).mpr rfl]
  rw [validator, List.find?_congr hrows, ← validator]

/-- The names that are read one by one, with the arrays and records among them, are those of the table. -/
theorem validator_eq (name : Text) :
    (if FieldType.isArrayName name then Zod.array Zod.any
      else if name = "record" then FieldType.recordExpression .none
      else FieldType.scalarExpression name) = validator name := by
  by_cases hmem : name ∈ validators.flatMap (·.1)
  · have hknown : ∀ name ∈ validators.flatMap (·.1),
        (if FieldType.isArrayName name then Zod.array Zod.any
          else if name = "record" then FieldType.recordExpression .none
          else FieldType.scalarExpression name) = validator name := by
      decide +kernel
    exact hknown name hmem
  · have hfind : validators.find? (·.1.contains name) = .none := by
      rw [List.find?_eq_none]
      intro row hrow hcontains
      exact hmem (List.mem_flatMap.mpr ⟨row, hrow, List.contains_iff_mem.mp hcontains⟩)
    have hne {other : Text} (hother : other ∈ validators.flatMap (·.1)) : name ≠ other := by
      rintro rfl
      exact hmem hother
    have hscalar : FieldType.scalarExpression name = Zod.any := by
      have hnames : ∀ entry ∈ FieldType.scalarExpressions, entry.1 ∈ validators.flatMap (·.1) := by decide +kernel
      rw [FieldType.scalarExpression, get?_eq_none fun entry hentry => hne (hnames entry hentry)]
      rfl
    have harray : FieldType.isArrayName name = false := by
      rw [FieldType.isArrayName, decide_eq_false (hne (by decide +kernel)), decide_eq_false (hne (by decide +kernel)),
        Bool.or_false]
    have hrecord : name ≠ "record".toList := hne (by decide +kernel)
    rw [harray, if_neg Bool.false_ne_true, if_neg hrecord, hscalar, validator, hfind]
    rfl

/-! ### Reading a spelling -/

/-- What is known of a text that spells a type, wherever it stands. -/
structure Reads (type : List TypeVariant) (text : Text) : Prop where
  balanced : Balanced text
  uncut : Uncut ',' text
  variants : (splitTopLevel '|' text).map read? = fragments type

variable {type element : List TypeVariant} {variant : TypeVariant}

theorem exists_fragment? (h : variant ≠ none) : ∃ fragment, variant.fragment? = some fragment := by
  cases variant with
  | none => exact absurd rfl h
  | name => exact ⟨_, by rw [fragment?]⟩
  | record => exact ⟨_, by rw [fragment?]⟩
  | array => exact ⟨_, by rw [fragment?]⟩
  | option => exact ⟨_, by rw [fragment?]⟩

theorem ofVariants_singleton (fragment : Fragment) : Fragment.ofVariants [some fragment] = fragment := by
  rw [Fragment.ofVariants, List.any_cons, List.any_nil, Bool.or_false]
  rfl

theorem eq_fragment_of_read? {fragment : Fragment} (h : read? text = some fragment) :
    fragment = FieldType.fragment text := by
  rw [read?] at h
  split at h
  · cases h
  · exact (Option.some.inj h).symm

/-- A type of one variant has a fragment, unless it is NONE. -/
theorem exists_eq_some {found : Option Fragment} (h : [found] = fragments type) (hne : type ≠ [.none]) :
    ∃ fragment, found = some fragment := by
  cases type with
  | nil => cases h
  | cons variant rest =>
      rw [fragments] at h
      obtain ⟨hfound, hrest⟩ := List.cons.inj h
      cases rest with
      | nil =>
          rw [hfound]
          exact exists_fragment? fun heq => hne (heq ▸ rfl)
      | cons next rest => cases hrest

/-- What a text is read as by itself is what its type means. -/
theorem Reads.fragment_eq (h : Reads type text) (hne : type ≠ [.none]) : FieldType.fragment text = meaning type := by
  have hvariants := h.variants
  rw [meaning, ← hvariants]
  by_cases hmany : 1 < (splitTopLevel '|' text).length
  · exact fragment_of_many hmany
  · obtain ⟨only, honly⟩ : ∃ only, splitTopLevel '|' text = [only] := by
      have hpos := List.length_pos_iff.mpr (splitTopLevel_ne_nil '|' text)
      exact List.length_eq_one_iff.mp (by omega)
    -- A single part is read as a name even if it is NONE, which is why a type cannot be NONE alone.
    rw [honly, List.map_singleton] at hvariants ⊢
    obtain ⟨fragment, hread⟩ := exists_eq_some hvariants hne
    rw [hread, ofVariants_singleton, eq_fragment_of_read? hread, eq_trim_of_splitTopLevel honly, fragment_trim]

theorem Reads.single (hbalanced : Balanced text) (hcomma : Uncut ',' text) (hbar : Uncut '|' text)
    (htrim : trim text = text) (h : variant.fragment? = read? text) : Reads [variant] text where
  balanced := hbalanced
  uncut := hcomma
  variants := by rw [hbar.splitTopLevel, htrim, List.map_singleton, fragments, fragments, h]

theorem fragments_append (first second : List TypeVariant) :
    fragments (first ++ second) = fragments first ++ fragments second := by
  induction first with
  | nil => rfl
  | cons variant rest ih => rw [List.cons_append, fragments, ih, fragments, List.cons_append]

theorem Reads.union {first second : List TypeVariant} {s t : Text} (hs : Reads first s) (ht : Reads second t) :
    Reads (first ++ second) (s ++ '|' :: t) where
  balanced := by
    have hbar : Balanced ['|'] := balanced_singleton rfl
    exact hs.balanced.append (hbar.append ht.balanced)
  uncut := by
    have hbar : Uncut ',' ['|'] := rfl
    exact hs.uncut.append hs.balanced.closed (hbar.append rfl ht.uncut)
  variants := by
    rw [splitTopLevel_append_separator rfl hs.balanced.closed, List.map_append, hs.variants, ht.variants,
      fragments_append]

theorem Reads.padded {before after : Text} (hbefore : ∀ c ∈ before, isBlank c = true)
    (hafter : ∀ c ∈ after, isBlank c = true) (h : Reads type text) : Reads type (before ++ text ++ after) where
  balanced := ((balanced_blanks hbefore).append h.balanced).append (balanced_blanks hafter)
  uncut := h.uncut.pad (by decide) hbefore hafter h.balanced.closed
  variants := by
    rw [splitTopLevel_append_blanks (by decide) _ hafter, splitTopLevel_blanks_append (by decide) hbefore, h.variants]

theorem Reads.ofWord (hword : IsTypeWord word) (h : variant.fragment? = read? word) : Reads [variant] word :=
  .single hword.balanced (hword.uncut (by decide)) (hword.uncut (by decide)) hword.trim_eq h

theorem Reads.ofApplied (hkeyword : IsTypeWord keyword) (hgap : ∀ c ∈ gap, isBlank c = true)
    (harguments : Balanced arguments)
    (h : variant.fragment? = some (FieldType.fragment (applied keyword gap arguments))) :
    Reads [variant] (applied keyword gap arguments) := by
  have huncut {separator : Char} (hseparator : separator ∈ dividers) (hblank : isBlank separator = false) :=
    uncut_applied hkeyword hgap harguments hseparator hblank
  refine .single (balanced_applied hkeyword hgap harguments) (huncut (by decide) (by decide))
    (huncut (by decide) (by decide)) (trim_applied hkeyword gap arguments) ?_
  rw [h, read?, isNone_applied, if_neg Bool.false_ne_true]

theorem reads_none (h : asciiLower word = "none") : Reads [none] word := by
  have hword : IsTypeWord word := isTypeWord_of_asciiLower (by decide) (by decide) h
  apply Reads.ofWord hword
  rw [fragment?, read?, isNone_eq, decide_eq_true h, if_pos rfl]

theorem reads_name (hword : IsTypeWord word) (hnone : asciiLower word ≠ "none") (hoption : asciiLower word ≠ "option") :
    Reads [name (asciiLower word)] word := by
  apply Reads.ofWord hword
  have hnot : lower word ≠ "option" := mt (lower_eq_iff (by decide)).mp hoption
  rw [fragment?, read?, isNone_eq, decide_eq_false hnone, if_neg Bool.false_ne_true, fragment_word hword, if_neg hnot,
    ← validator_lower, ← validator_eq]
  split_ifs <;> rfl

theorem reads_option (hkeyword : asciiLower keyword = "option") (hgap : ∀ c ∈ gap, isBlank c = true)
    {inner : Text} (hinner : Reads type inner) (hne : type ≠ [.none]) : Reads [option type] (applied keyword gap inner) := by
  have hword : IsTypeWord keyword := isTypeWord_of_asciiLower (by decide) (by decide) hkeyword
  have hlower : lower keyword = "option" := (lower_eq_iff (by decide)).mpr hkeyword
  apply Reads.ofApplied hword hgap hinner.balanced
  rw [fragment_applied hword hgap hinner.balanced hinner.uncut.splitTopLevel, if_pos hlower, fragment_trim,
    hinner.fragment_eq hne, fragment?]
  rfl

theorem reads_array (hkeyword : asciiLower keyword = "array" ∨ asciiLower keyword = "set")
    (hgap : ∀ c ∈ gap, isBlank c = true) (hbalanced : Balanced arguments) {inner : Text} {rest : List Text}
    (hfirst : splitTopLevel ',' arguments = trim inner :: rest) (hinner : Reads element inner)
    (hne : element ≠ [.none]) : Reads [array element] (applied keyword gap arguments) := by
  have hword : IsTypeWord keyword := by
    rcases hkeyword with h | h
    · exact isTypeWord_of_asciiLower (by decide) (by decide) h
    · exact isTypeWord_of_asciiLower (by decide) (by decide) h
  have hlower : lower keyword = "array" ∨ lower keyword = "set" :=
    hkeyword.imp (lower_eq_iff (by decide)).mpr (lower_eq_iff (by decide)).mpr
  have hnot : lower keyword ≠ "option" := by
    rcases hlower with h | h <;> rw [h] <;> decide
  have harray : FieldType.isArrayName (lower keyword) = true := by
    rcases hlower with h | h <;> rw [h] <;> decide
  apply Reads.ofApplied hword hgap hbalanced
  rw [fragment_applied hword hgap hbalanced hfirst, if_neg hnot, if_pos harray, fragment_trim, hinner.fragment_eq hne,
    fragment?]
  rfl

theorem plain_of_mem_join {tables : List Text} (htables : ∀ table ∈ tables, IsTypeWord (trim table)) :
    ∀ c ∈ join ['|'] tables, nesting c = 0 ∧ c ≠ ',' := by
  intro c hc
  rcases mem_join hc with rfl | ⟨table, htable, hc⟩
  · decide
  · have hword := htables table htable
    obtain ⟨before, after, hbefore, hafter, heq⟩ := exists_eq_append_trim table
    have hblank (h : isBlank c = true) : nesting c = 0 ∧ c ≠ ',' := by
      refine ⟨nesting_eq_zero_of_isBlank h, ?_⟩
      rintro rfl
      cases h
    rw [heq, List.mem_append, List.mem_append] at hc
    rcases hc with (hc | hc) | hc
    · exact hblank (hbefore c hc)
    · exact ⟨hword.nesting_eq_zero c hc, hword.ne_of_mem hc (by decide)⟩
    · exact hblank (hafter c hc)

theorem recordExpression_eq {tables : List Text} (hne : tables ≠ [])
    (htables : ∀ table ∈ tables, IsTypeWord (trim table)) :
    FieldType.recordExpression (some (trim (join ['|'] tables))) = Zod.recordId (tables.map trim) := by
  have hbar : isBlank '|' = false := by decide
  have hparts : ∀ table ∈ tables, Balanced table ∧ Uncut '|' table := fun table htable =>
    have hword := htables table htable
    ⟨.of_trim hword.balanced, .of_trim hbar hword.balanced.closed (hword.uncut (by decide))⟩
  have hkept : (tables.map trim).filter (!·.isEmpty) = tables.map trim := by
    rw [List.filter_eq_self]
    intro name hname
    obtain ⟨table, htable, rfl⟩ := List.mem_map.mp hname
    simpa using (htables table htable).ne_nil
  rw [FieldType.recordExpression, Option.map_some, splitTopLevel_trim hbar, Option.getD_some, splitTopLevel,
    pieces_join rfl hne hparts, hkept]

theorem reads_record (hkeyword : asciiLower keyword = "record") (hgap : ∀ c ∈ gap, isBlank c = true)
    {tables : List Text} (hne : tables ≠ []) (htables : ∀ table ∈ tables, IsTypeWord (trim table)) :
    Reads [record (tables.map trim)] (applied keyword gap (join ['|'] tables)) := by
  have hword : IsTypeWord keyword := isTypeWord_of_asciiLower (by decide) (by decide) hkeyword
  have hlower : lower keyword = "record" := (lower_eq_iff (by decide)).mpr hkeyword
  have hplain := plain_of_mem_join htables
  have hbalanced : Balanced (join ['|'] tables) := balanced_of_forall fun c hc => (hplain c hc).1
  have huncut : Uncut ',' (join ['|'] tables) := pieces_of_forall_ne (fun c hc => (hplain c hc).2) 0
  apply Reads.ofApplied hword hgap hbalanced
  rw [fragment_applied hword hgap hbalanced huncut.splitTopLevel, hlower, if_neg (by decide), if_neg (by decide),
    if_pos rfl, recordExpression_eq hne htables, fragment?]

theorem reads_sizedArray (hkeyword : asciiLower keyword = "array" ∨ asciiLower keyword = "set")
    (hgap : ∀ c ∈ gap, isBlank c = true) {inner size : Text} (hinner : Reads element inner) (hne : element ≠ [.none])
    (hsize : IsTypeWord (trim size)) : Reads [array element] (applied keyword gap (inner ++ ',' :: size)) := by
  have hcomma : Balanced [','] := balanced_singleton rfl
  have hbalanced : Balanced (inner ++ ',' :: size) := hinner.balanced.append (hcomma.append (.of_trim hsize.balanced))
  have hfirst : splitTopLevel ',' (inner ++ ',' :: size) = trim inner :: splitTopLevel ',' size := by
    rw [splitTopLevel_append_separator rfl hinner.balanced.closed, hinner.uncut.splitTopLevel, List.singleton_append]
  exact reads_array hkeyword hgap hbalanced hfirst hinner hne

theorem Spells.reads (h : Spells type text) : Reads type text := by
  induction h with
  | none hword => exact reads_none hword
  | name hword hnone hoption => exact reads_name hword hnone hoption
  | record hkeyword hgap hne htables => exact reads_record hkeyword hgap hne htables
  | array hkeyword hgap hinner hne ih => exact reads_array hkeyword hgap ih.balanced ih.uncut.splitTopLevel ih hne
  | sizedArray hkeyword hgap hinner hne hsize ih => exact reads_sizedArray hkeyword hgap ih hne hsize
  | option hkeyword hgap hinner hne ih => exact reads_option hkeyword hgap ih hne
  | union hs ht ihs iht => exact ihs.union iht
  | padded hbefore hafter htext ih => exact ih.padded hbefore hafter

/-- The fragment of a text is what the type that it spells means, however deep the type and whatever its spelling. -/
theorem fragment_eq_meaning (h : Spells type text) (hne : type ≠ [.none]) :
    FieldType.fragment text = meaning type :=
  h.reads.fragment_eq hne

theorem fragment_eq_meaning_of_nested_union :
    Spells [.array [.option [.name "int"], .none], .record ["a", "b"]]
        " Array < option<Int>|NONE , 5 > | record< a |b>" ∧
      FieldType.fragment " Array < option<Int>|NONE , 5 > | record< a |b>" =
        { expression := "z.union([z.array(z.number().optional()), recordId([\"a\", \"b\"])])", optional := false } := by
  have hspace : ∀ c ∈ [' '], isBlank c = true := List.forall_mem_singleton.mpr rfl
  have hnil : ∀ c ∈ ([] : Text), isBlank c = true := List.forall_mem_nil _
  have hint : Spells [.name (asciiLower "Int")] "Int" := .name (by decide) (by decide) (by decide)
  have hoption : Spells [.option [.name (asciiLower "Int")]] (applied "option" [] "Int") :=
    .option (by decide) hnil hint (by simp)
  have helement := Spells.padded hspace hspace (hoption.union (.none (by decide : asciiLower "NONE" = "none")))
  have hsize : IsTypeWord (trim " 5 ") := by decide
  have harray := Spells.sizedArray (Or.inl (by decide : asciiLower "Array" = "array")) hspace helement (by simp) hsize
  have htables : ∀ table ∈ [" a ".toList, "b".toList], IsTypeWord (trim table) := by decide
  have hrecord := Spells.record (by decide : asciiLower "record" = "record") hnil (List.cons_ne_nil _ _) htables
  have hspells : Spells [.array [.option [.name "int"], .none], .record ["a", "b"]]
      " Array < option<Int>|NONE , 5 > | record< a |b>" := by
    have hlower : asciiLower "Int" = "int" := by decide +kernel
    have htrim : [" a ".toList, "b".toList].map trim = ["a", "b"] := by decide +kernel
    rw [hlower] at harray
    rw [htrim] at hrecord
    refine (congrArg (Spells _) ?_).mp (Spells.padded hspace hnil ((Spells.padded hnil hspace harray).union
      (Spells.padded hspace hnil hrecord)))
    decide +kernel
  refine ⟨hspells, (fragment_eq_meaning hspells (by simp)).trans ?_⟩
  decide +kernel

end TypeVariant

end SurrealZod
