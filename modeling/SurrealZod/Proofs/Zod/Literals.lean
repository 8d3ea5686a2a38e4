import SurrealZod.Proofs.Text.Nesting
import SurrealZod.Proofs.Zod.Optionality

/-! Literals in clauses. A list of strings is divided at its commas before anything is known of quotes, so what is
read back depends on the brackets and commas in the strings. A default between single quotes is one string, whatever
quotes it has inside. -/

namespace SurrealZod

open Text

/-! ### Quotes around a text -/

theorem Text.between?_eq_some_iff {first last : Char} {t inner : Text} :
    between? first last t = some inner ↔ t = first :: (inner ++ [last]) := by
  cases t with
  | nil => simp [between?, dropStart?]
  | cons c t =>
      by_cases hc : first = c
      · subst hc
        rw [between?, dropStart?, if_pos rfl, dropStart?, Option.bind_some, dropLast?, List.cons.injEq,
          Option.ite_none_right_eq_some, List.getLast?_eq_some_iff]
        constructor
        · rintro ⟨⟨front, rfl⟩, hinner⟩
          rw [List.dropLast_concat] at hinner
          exact ⟨rfl, by rw [Option.some.inj hinner]⟩
        · rintro ⟨-, rfl⟩
          exact ⟨⟨inner, rfl⟩, by rw [List.dropLast_concat]⟩
      · rw [between?, dropStart?, if_neg hc, List.cons.injEq]
        exact iff_of_false nofun fun h => hc h.1.symm

theorem Text.trim_ne_nil {t : Text} {c : Char} (hmem : c ∈ t) (hc : isBlank c = false) : trim t ≠ [] := by
  intro hempty
  have hblank := trim_eq_nil_iff.mp hempty c hmem
  rw [hc] at hblank
  cases hblank

namespace Constraint

/-- The quotes of strings in a list. -/
def quotes : List Char := ['\'', '"']

theorem plain_of_mem_quotes {quote : Char} (h : quote ∈ quotes) :
    isBlank quote = false ∧ nesting quote = 0 ∧ quote ≠ ',' := by
  rw [quotes, List.mem_pair] at h
  rcases h with rfl | rfl <;> decide

theorem literal?_eq_some_iff {item inner : Text} :
    literal? item = some inner ↔ ∃ quote ∈ quotes, item = quote :: (inner ++ [quote]) := by
  have hdouble : between? '\'' '\'' item = none ∨ between? '"' '"' item = none := by
    cases hsingle : between? '\'' '\'' item with
    | none => exact Or.inl rfl
    | some first =>
        right
        refine Option.eq_none_iff_forall_ne_some.mpr fun second hsecond => ?_
        have heq := (between?_eq_some_iff.mp hsingle).symm.trans (between?_eq_some_iff.mp hsecond)
        exact absurd (List.cons.inj heq).1 (by decide)
  simp only [quotes, List.mem_cons, List.not_mem_nil, or_false, exists_eq_or_imp, exists_eq_left,
    ← between?_eq_some_iff, literal?]
  rcases hdouble with h | h <;> simp [h]

/-- A literal in a piece of a list stands between white space. -/
theorem exists_of_literal?_trim {piece inner : Text} (h : literal? (trim piece) = some inner) :
    ∃ before after : Text, ∃ quote ∈ quotes, (∀ c ∈ before, isBlank c = true) ∧ (∀ c ∈ after, isBlank c = true) ∧
      piece = before ++ quote :: (inner ++ [quote]) ++ after := by
  obtain ⟨quote, hquote, htrim⟩ := literal?_eq_some_iff.mp h
  obtain ⟨before, after, hbefore, hafter, hpiece⟩ := exists_eq_append_trim piece
  rw [htrim] at hpiece
  exact ⟨before, after, quote, hquote, hbefore, hafter, hpiece⟩

/-! ### Lists of strings -/

/-- A string in a list as it is written: between two quotes of one kind, with white space around them. The string has
no quotes itself. -/
structure ListedString where
  text : Text
  quote : Char
  before : Text
  after : Text
  isQuote : quote ∈ quotes
  blank_before : ∀ c ∈ before, isBlank c = true
  blank_after : ∀ c ∈ after, isBlank c = true
  plain : ∀ quote ∈ quotes, quote ∉ text

namespace ListedString

def literal (item : ListedString) : Text := item.quote :: (item.text ++ [item.quote])

def written (item : ListedString) : Text := item.before ++ item.literal ++ item.after

end ListedString

/-- A list of strings as it is written in a clause. -/
def writtenList (items : List ListedString) : Text := '[' :: (join [','] (items.map (·.written)) ++ [']'])

/-- The strings in the pieces of a list, among which blank ones do not count. -/
def strings? (pieces : List Text) : Option (List Text) := ((pieces.map trim).filter (!·.isEmpty)).mapM literal?

theorem strings?_cons {piece : Text} (h : trim piece ≠ []) (rest : List Text) :
    strings? (piece :: rest) = (literal? (trim piece)).bind fun first => (strings? rest).map (first :: ·) := by
  have hkept : (!(trim piece).isEmpty) = true := by simpa using h
  rw [strings?, List.map_cons, List.filter_cons, if_pos hkept, List.mapM_cons]
  refine Option.bind_congr fun first _ => ?_
  rw [Option.map_eq_bind]
  rfl

theorem enumValues?_writtenList {items : List ListedString} (hne : items ≠ []) :
    enumValues? (writtenList items) = some (items.map (·.text)) ↔
      strings? (pieces ',' 0 (join [','] (items.map (·.written)))) = some (items.map (·.text)) := by
  have htrim : trim (writtenList items) = writtenList items := by
    refine trim_eq_self rfl ?_
    rw [writtenList, ← List.cons_append, endsBlank_append _ (List.cons_ne_nil _ _)]
    rfl
  have hinner : between? '[' ']' (writtenList items) = some (join [','] (items.map (·.written))) :=
    between?_eq_some_iff.mpr rfl
  obtain ⟨first, rest, rfl⟩ := List.exists_cons_of_ne_nil hne
  rw [enumValues?, htrim, hinner]
  dsimp only
  rw [splitTopLevel, ← strings?]
  cases strings? (pieces ',' 0 (join [','] ((first :: rest).map (·.written)))) with
  | none => simp
  | some found => cases found <;> simp

namespace ListedString

variable (item : ListedString)

theorem isPlain_quote : isBlank item.quote = false ∧ nesting item.quote = 0 ∧ item.quote ≠ ',' :=
  plain_of_mem_quotes item.isQuote

theorem literal?_trim_written : literal? (trim item.written) = some item.text := by
  have hends : trim item.literal = item.literal := by
    refine trim_eq_self item.isPlain_quote.1 ?_
    rw [literal, ← List.cons_append, endsBlank_append _ (List.cons_ne_nil _ _)]
    exact item.isPlain_quote.1
  rw [written, trim_append_blanks _ item.blank_after, trim_blanks_append item.blank_before, hends]
  exact literal?_eq_some_iff.mpr ⟨item.quote, item.isQuote, rfl⟩

theorem quote_mem_written : item.quote ∈ item.written := by
  simp [written, literal]

theorem balance_written : balance item.written = balance item.text := by
  have hquote : balance [item.quote] = 0 := by rw [balance, item.isPlain_quote.2.1]; rfl
  rw [written, literal, ← List.singleton_append, balance_append, balance_append, balance_append, balance_append,
    (balanced_blanks item.blank_before).closed, (balanced_blanks item.blank_after).closed, hquote]
  omega

theorem count_quotes_blanks {blanks : Text} (h : ∀ c ∈ blanks, isBlank c = true) : blanks.countP (· ∈ quotes) = 0 := by
  rw [List.countP_eq_zero]
  intro c hc hquote
  have hblank := (plain_of_mem_quotes (of_decide_eq_true hquote)).1
  rw [h c hc] at hblank
  cases hblank

theorem count_comma_blanks {blanks : Text} (h : ∀ c ∈ blanks, isBlank c = true) : blanks.count ',' = 0 :=
  List.count_eq_zero.mpr fun hmem => absurd (h ',' hmem) (by decide)

theorem uncut_before_quote {part : Text} (h : Uncut ',' part) : Uncut ',' (item.before ++ item.quote :: part) := by
  have hfront : ∀ c ∈ item.before ++ [item.quote], c ≠ ',' := by
    intro c hc
    rcases List.mem_append.mp hc with hc | hc
    · exact ne_of_mem_blanks (by decide) item.blank_before c hc
    · rw [List.mem_singleton.mp hc]
      exact item.isPlain_quote.2.2
  have hclosed : balance (item.before ++ [item.quote]) = 0 := by
    rw [balance_append, (balanced_blanks item.blank_before).closed, balance, item.isPlain_quote.2.1]
    rfl
  rw [← List.singleton_append, ← List.append_assoc]
  exact Uncut.append (pieces_of_forall_ne hfront 0) hclosed h

variable {item}

theorem uncut_written (h : Uncut ',' item.text) : Uncut ',' item.written := by
  have hbehind : ∀ c ∈ item.quote :: item.after, c ≠ ',' :=
    List.forall_mem_cons.mpr ⟨item.isPlain_quote.2.2, ne_of_mem_blanks (by decide) item.blank_after⟩
  have hpieces := pieces_append ',' 0 (item.before ++ item.quote :: item.text) (item.quote :: item.after)
  rw [item.uncut_before_quote h, pieces_of_forall_ne hbehind] at hpieces
  have hwritten : item.written = item.before ++ item.quote :: item.text ++ item.quote :: item.after := by
    simp [written, literal]
  rw [Uncut, hwritten, hpieces]
  rfl

/-- A string with a comma outside of brackets is no string for the reader: in front of that comma it has one quote. -/
theorem strings?_of_cut (h : ¬Uncut ',' item.text) (rest : Text) :
    strings? (pieces ',' 0 (item.written ++ rest)) = none := by
  obtain ⟨front, behind, htext, hcomma, hfront, hclosed⟩ := exists_cut h
  have hwritten : item.written ++ rest =
      (item.before ++ item.quote :: front) ++ ',' :: (behind ++ item.quote :: item.after ++ rest) := by
    simp [written, literal, htext]
  have hbalance : balance (item.before ++ item.quote :: front) = 0 := by
    rw [balance_append, balance, (balanced_blanks item.blank_before).closed, item.isPlain_quote.2.1]
    omega
  have hquote : item.quote ∈ item.before ++ item.quote :: front := List.mem_append_right _ List.mem_cons_self
  rw [hwritten, pieces_append_separator hcomma hbalance, item.uncut_before_quote hfront, List.singleton_append,
    strings?_cons (trim_ne_nil hquote item.isPlain_quote.1)]
  cases hliteral : literal? (trim (item.before ++ item.quote :: front)) with
  | none => rfl
  | some inner =>
      -- A literal has two quotes, but the text in front of the comma has only the first one of the string.
      obtain ⟨before, after, quote, hquote, -, -, heq⟩ := exists_of_literal?_trim hliteral
      have hplain : front.countP (· ∈ quotes) = 0 := List.countP_eq_zero.mpr fun c hc hmem =>
        item.plain c (of_decide_eq_true hmem) (htext ▸ List.mem_append_left _ hc)
      have hcount := congrArg (List.countP (· ∈ quotes)) heq
      simp only [List.countP_append, List.countP_cons, List.countP_nil, decide_eq_true item.isQuote,
        decide_eq_true hquote, if_true, count_quotes_blanks item.blank_before, hplain] at hcount
      omega

/-- A string that does not close its brackets runs on over the comma behind it. -/
theorem strings?_of_open (h : Uncut ',' item.text) (hopen : balance item.text ≠ 0) (rest : Text) (texts : List Text) :
    strings? (pieces ',' 0 (item.written ++ ',' :: rest)) ≠ some (item.text :: texts) := by
  obtain ⟨piece, more, hpieces⟩ := List.exists_cons_of_ne_nil (pieces_ne_nil ',' (0 + balance item.written) rest)
  have hcomma : nesting ',' = 0 := rfl
  have hdepth : ¬(nesting ',' = 0 ∧ ',' = ',' ∧ 0 + balance item.written = 0) := by
    rw [item.balance_written]
    omega
  have hfirst : pieces ',' 0 (item.written ++ ',' :: rest) = (item.written ++ ',' :: piece) :: more := by
    rw [pieces_append, uncut_written h, pieces, if_neg hdepth, hcomma, Int.add_zero, hpieces]
    rfl
  have hquote : item.quote ∈ item.written ++ ',' :: piece := List.mem_append_left _ item.quote_mem_written
  rw [hfirst, strings?_cons (trim_ne_nil hquote item.isPlain_quote.1)]
  intro hstrings
  obtain ⟨first, hliteral, hrest⟩ := Option.bind_eq_some_iff.mp hstrings
  obtain ⟨_, -, hcons⟩ := Option.map_eq_some_iff.mp hrest
  obtain ⟨rfl, -⟩ := List.cons.inj hcons
  -- The literal would be the whole piece, which has one comma more than the string.
  obtain ⟨before, after, quote, hquote, hbefore, hafter, heq⟩ := exists_of_literal?_trim hliteral
  have hne {quote : Char} (hquote : quote ∈ quotes) : (quote == ',') = false :=
    beq_false_of_ne (plain_of_mem_quotes hquote).2.2
  have hcount := congrArg (List.count ',') heq
  simp only [written, literal, List.count_append, List.count_cons, List.count_nil, hne hquote, hne item.isQuote,
    count_comma_blanks hbefore, count_comma_blanks hafter, count_comma_blanks item.blank_before,
    count_comma_blanks item.blank_after, beq_self_eq_true, if_true] at hcount
  simp at hcount

end ListedString

open ListedString

/-- The strings of a list are read back if none of them has a comma outside of brackets, and each one in front of
another one closes the brackets that it opens. -/
theorem strings?_join_iff {items : List ListedString} (hne : items ≠ []) :
    strings? (pieces ',' 0 (join [','] (items.map (·.written)))) = some (items.map (·.text)) ↔
      (∀ item ∈ items, Uncut ',' item.text) ∧ ∀ item ∈ items.dropLast, balance item.text = 0 := by
  induction items with
  | nil => exact absurd rfl hne
  | cons item rest ih =>
      have hread := item.literal?_trim_written
      have hblank := trim_ne_nil item.quote_mem_written item.isPlain_quote.1
      by_cases huncut : Uncut ',' item.text
      · cases rest with
        | nil =>
            have hpieces : pieces ',' 0 item.written = [item.written] := uncut_written huncut
            have hnone : strings? [] = some [] := rfl
            rw [List.map_singleton, join, List.intercalate_singleton, hpieces, strings?_cons hblank, hread, hnone]
            simpa using huncut
        | cons next rest =>
            have hjoin : join [','] ((item :: next :: rest).map (·.written)) =
                item.written ++ ',' :: join [','] ((next :: rest).map (·.written)) := by
              rw [List.map_cons, List.map_cons, join, List.intercalate_cons_cons, List.append_assoc,
                List.singleton_append]
            rw [hjoin]
            -- The comma behind a string divides the list only if the string closes its brackets.
            by_cases hclosed : balance item.text = 0
            · have hbalance : balance item.written = 0 := item.balance_written.trans hclosed
              rw [pieces_append_separator rfl hbalance, uncut_written huncut, List.singleton_append,
                strings?_cons hblank, hread, Option.bind_some]
              simpa [huncut, hclosed] using ih (List.cons_ne_nil next rest)
            · refine iff_of_false (strings?_of_open huncut hclosed _ _) fun h => hclosed ?_
              exact h.2 item (by simp)
      · rw [List.map_cons, join_cons, strings?_of_cut huncut]
        exact iff_of_false (Option.some_ne_none _).symm fun h => huncut (h.1 item List.mem_cons_self)

/-- A written list of strings is read back exactly if no string has a comma outside of brackets, and each string in
front of another one closes the brackets that it opens. -/
theorem enumValues?_writtenList_iff {items : List ListedString} (hne : items ≠ []) :
    enumValues? (writtenList items) = some (items.map (·.text)) ↔
      (∀ item ∈ items, Uncut ',' item.text) ∧ ∀ item ∈ items.dropLast, balance item.text = 0 :=
  (enumValues?_writtenList hne).trans (strings?_join_iff hne)

/-- Brackets around a comma, and an open bracket in the last string. -/
theorem enumValues?_writtenList_of_brackets :
    ∃ items : List ListedString, items ≠ [] ∧ writtenList items = "['f(a, b)' , \"c[\"]" ∧
      enumValues? (writtenList items) = some [("f(a, b)" : Text), ("c[" : Text)] := by
  have hspace : ∀ c ∈ [' '], isBlank c = true := List.forall_mem_singleton.mpr rfl
  have hplain {text : Text} (hsingle : '\'' ∉ text) (hdouble : '"' ∉ text) : ∀ quote ∈ quotes, quote ∉ text :=
    List.forall_mem_cons.mpr ⟨hsingle, List.forall_mem_singleton.mpr hdouble⟩
  refine ⟨[
    { text := "f(a, b)", quote := '\'', before := [], after := [' '], isQuote := by decide,
      blank_before := List.forall_mem_nil _, blank_after := hspace, plain := hplain (by decide) (by decide) },
    { text := "c[", quote := '"', before := [' '], after := [], isQuote := by decide,
      blank_before := hspace, blank_after := List.forall_mem_nil _, plain := hplain (by decide) (by decide) }],
    List.cons_ne_nil _ _, rfl, ?_⟩
  exact (enumValues?_writtenList_iff (List.cons_ne_nil _ _)).mpr
    ⟨by simp only [List.forall_mem_cons]; decide, by simp only [List.dropLast, List.forall_mem_cons]; decide⟩

/-- Two strings of which the first one opens a bracket are read as one, and a comma in a string leaves none. -/
theorem strings_lost_to_bracket_and_comma :
    enumValues? "['(', 'b']" = some [("(', 'b" : Text)] ∧ enumValues? "['(', 'b']" ≠ some [("(" : Text), ("b" : Text)] ∧
      enumValues? "['a,b', 'c']" = none := by
  decide +kernel

end Constraint

/-! ### Defaults -/

/-- No JSON text begins with a single quote. -/
theorem JsonValue.ofText?_quote (t : Text) : ofText? ('\'' :: t) = none := by
  have hform : JsonForm.ofText? ('\'' :: t) = none := by
    have hvalue (fuel : Nat) : JsonForm.readValue (fuel + 1) ('\'' :: t) = none := by
      simp [JsonForm.readValue, JsonForm.skipBlank, JsonForm.readNumeral, JsonForm.readDigits]
    rw [JsonForm.ofText?, hvalue]
  rw [ofText?, hform, Option.bind_none]

namespace Constraint

/-- Whether each single quote in a text stands behind a backslash. -/
def QuotesEscaped (t : Text) : Prop := ∀ front ∈ t.inits, front ++ ['\''] <+: t → front.getLast? = some '\\'

instance (t : Text) : Decidable (QuotesEscaped t) := List.decidableBAll _ _

/-- The literals that single literals of a schema stand for: a JSON text for its value, and a text between single
quotes for itself. -/
inductive IsLiteral : Text → Text → Prop where
  | json {expression : Text} {value : JsonValue} (h : JsonValue.ofText? expression = some value) :
      IsLiteral expression value.text
  | quoted {inner : Text} (h : QuotesEscaped inner) : IsLiteral ('\'' :: (inner ++ ['\''])) (Text.quoted inner)

variable {expression literal inner : Text}

theorem isLiteral_quoted_iff : IsLiteral ('\'' :: (inner ++ ['\''])) literal ↔
    QuotesEscaped inner ∧ literal = Text.quoted inner := by
  constructor
  · generalize hexpression : '\'' :: (inner ++ ['\'']) = expression
    intro h
    cases h with
    | json hvalue =>
        rw [← hexpression, JsonValue.ofText?_quote] at hvalue
        cases hvalue
    | quoted hescaped =>
        obtain ⟨rfl, -⟩ := List.append_inj' (List.cons.inj hexpression).2 rfl
        exact ⟨hescaped, rfl⟩
  · rintro ⟨hescaped, rfl⟩
    exact .quoted hescaped

theorem defaultLiteral?_quoted (h : trim expression = '\'' :: (inner ++ ['\''])) :
    defaultLiteral? expression = some (Text.quoted inner) := by
  have hinner : between? '\'' '\'' (trim expression) = some inner := between?_eq_some_iff.mpr h
  rw [defaultLiteral?, hinner]

/-- An expression is taken for a literal if it is one, and also if it merely begins and ends with a single quote. -/
theorem defaultLiteral?_eq_some_iff : defaultLiteral? expression = some literal ↔
    IsLiteral (trim expression) literal ∨
      ∃ inner, trim expression = '\'' :: (inner ++ ['\'']) ∧ ¬QuotesEscaped inner ∧ literal = Text.quoted inner := by
  by_cases hquoted : ∃ inner, trim expression = '\'' :: (inner ++ ['\''])
  · obtain ⟨inner, htrim⟩ := hquoted
    rw [defaultLiteral?_quoted htrim, htrim, isLiteral_quoted_iff, Option.some.injEq, eq_comm]
    constructor
    · intro hliteral
      exact (Classical.em (QuotesEscaped inner)).imp (⟨·, hliteral⟩) (⟨inner, rfl, ·, hliteral⟩)
    · rintro (⟨-, hliteral⟩ | ⟨other, hother, -, hliteral⟩)
      · exact hliteral
      · rwa [(List.append_inj' (List.cons.inj hother).2 rfl).1]
  · have hnone : between? '\'' '\'' (trim expression) = none :=
      Option.eq_none_iff_forall_ne_some.mpr fun inner hinner => hquoted ⟨inner, between?_eq_some_iff.mp hinner⟩
    rw [defaultLiteral?, hnone]
    constructor
    · intro hliteral
      obtain ⟨value, hvalue, rfl⟩ := Option.map_eq_some_iff.mp hliteral
      exact Or.inl (.json hvalue)
    · rintro (hliteral | ⟨inner, hinner, -⟩)
      · generalize htrim : trim expression = trimmed at hliteral
        cases hliteral with
        | json hvalue => exact Option.map_eq_some_iff.mpr ⟨_, hvalue, rfl⟩
        | quoted hescaped => exact absurd ⟨_, htrim⟩ hquoted
      · exact absurd ⟨inner, hinner⟩ hquoted

/-- A default is written behind all other constraints, as a literal or as the call that makes a field optional. -/
theorem expression_of_default (base : Text) {definition : FieldDefinition} (optional : Bool) {default : Text}
    (h : definition.defaultValue = some default) :
    (constrain base definition optional).expression =
      match defaultLiteral? default with
      | some literal =>
        Zod.withDefault (constrain base { definition with defaultValue := none } false).expression literal
      | none => Zod.optional (constrain base { definition with defaultValue := none } false).expression := by
  simp only [constrain, h, finish]
  cases defaultLiteral? default <;> rfl

/-- A default is written as the literal that it is, and an expression that is no single literal makes the field
optional, exactly if the default is not one that begins and ends with a single quote and has another one, without a
backslash in front of it, between these. Such an expression is written as if it were one string. -/
theorem default_of_single_literal (base : Text) (definition : FieldDefinition) (optional : Bool) {default : Text}
    (h : definition.defaultValue = some default) :
    let body := (constrain base { definition with defaultValue := none } false).expression
    let expression := (constrain base definition optional).expression
    (((∃ literal, IsLiteral (trim default) literal ∧ expression = Zod.withDefault body literal) ∨
        (∀ literal, ¬IsLiteral (trim default) literal) ∧ expression = Zod.optional body) ↔
      ∀ inner, trim default = '\'' :: (inner ++ ['\'']) → QuotesEscaped inner) ∧
    ∀ inner, trim default = '\'' :: (inner ++ ['\'']) → expression = Zod.withDefault body (Text.quoted inner) := by
  intro body expression
  have hexpression := expression_of_default base optional h
  have hquoted : ∀ inner, trim default = '\'' :: (inner ++ ['\'']) →
      expression = Zod.withDefault body (Text.quoted inner) := by
    intro inner htrim
    rwa [defaultLiteral?_quoted htrim] at hexpression
  refine ⟨⟨?_, fun hescaped => ?_⟩, hquoted⟩
  · rintro (⟨literal, hliteral, -⟩ | ⟨-, hoptional⟩) inner htrim
    · rw [htrim] at hliteral
      exact (isLiteral_quoted_iff.mp hliteral).1
    · have hends : Zod.EndsOptional (Zod.withDefault body (Text.quoted inner)) := by
        rw [← hquoted inner htrim, hoptional]
        exact List.suffix_append _ _
      exact absurd hends (Zod.not_endsOptional_withDefault body (Lexical.solid_quoted inner))
  · cases hliteral : defaultLiteral? default with
    | some literal =>
        rw [hliteral] at hexpression
        rcases defaultLiteral?_eq_some_iff.mp hliteral with hsingle | ⟨inner, htrim, hbare, -⟩
        · exact Or.inl ⟨literal, hsingle, hexpression⟩
        · exact absurd (hescaped inner htrim) hbare
    | none =>
        rw [hliteral] at hexpression
        refine Or.inr ⟨fun literal hsingle => ?_, hexpression⟩
        have hsome := defaultLiteral?_eq_some_iff.mpr (Or.inl hsingle)
        exact absurd (hliteral.symm.trans hsome) nofun

theorem default_of_single_literal_of_escaped_quote :
    let definition : FieldDefinition := { name := "motto", defaultValue := some " 'it\\'s' " }
    ∃ default, definition.defaultValue = some default ∧
      (constrain Zod.string definition false).expression = "z.string().default(\"it\\\\'s\")" ∧
      ∃ literal, IsLiteral (trim default) literal ∧ (constrain Zod.string definition false).expression =
        Zod.withDefault (constrain Zod.string { definition with defaultValue := none } false).expression literal := by
  intro definition
  have htrim : trim " 'it\\'s' " = '\'' :: ("it\\'s".toList ++ ['\'']) := by decide +kernel
  obtain ⟨-, hquoted⟩ := default_of_single_literal Zod.string definition false rfl
  have hexpression := hquoted _ htrim
  refine ⟨_, rfl, ?_, Text.quoted "it\\'s", ?_, hexpression⟩
  · rw [hexpression]
    decide +kernel
  · rw [htrim]
    exact .quoted (by decide)

/-- The sum of two strings is taken for one string. -/
theorem default_of_quoted_operands :
    (constrain Zod.string { defaultValue := some "'a' + 'b'" } false).expression =
        "z.string().default(\"a' + 'b\")" ∧
      ∀ literal, ¬IsLiteral "'a' + 'b'" literal := by
  refine ⟨by decide +kernel, fun literal hliteral => ?_⟩
  have hquoted : "'a' + 'b'".toList = '\'' :: ("a' + 'b".toList ++ ['\'']) := by decide
  rw [hquoted] at hliteral
  exact absurd (isLiteral_quoted_iff.mp hliteral).1 (by decide)

end Constraint

end SurrealZod
