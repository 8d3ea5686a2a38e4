import Mathlib.Data.List.TakeWhile
import SurrealZod.Proofs.Field.Reading

/-! Statements clause by clause. A plain word belongs to the slot that the last keyword before it opens, whatever
stands between them, and a slot holds its words one behind the other. So a definition depends on the words of each
slot alone: neither on the order of the clauses of different slots, nor on the letter case of a keyword, nor on
neutral words. -/

namespace SurrealZod

open Text

namespace Slot

/-- The slot that a word opens as a keyword. -/
def opened? (word : Text) : Option Slot :=
  match WordClass.of word with
  | .opens slot => some slot
  | _ => none

/-- The slot that the last of the words that are keywords of slots opens. -/
def lastOpened? (words : List Text) : Option Slot := (words.filterMap opened?).getLast?

/-- The plain words with a keyword of the slot as the last one of any slot before them, in order. -/
def wordsIn (slot : Slot) (words : List Text) : List Text :=
  (words.zipIdx.filter fun entry =>
    WordClass.of entry.1 = .plain ∧ lastOpened? (words.take entry.2) = some slot).map (·.1)

variable {slot : Slot} {word : Text}

theorem opened?_eq_none_of_plain (h : WordClass.of word = .plain) : opened? word = none := by
  simp only [opened?, h]

theorem opened?_eq_none_of_neutral (h : WordClass.of word = .neutral) : opened? word = none := by
  simp only [opened?, h]

theorem opened?_of_opens (h : WordClass.of word = .opens slot) : opened? word = some slot := by
  simp only [opened?, h]

theorem of_eq_opens_of_opened? (h : opened? word = some slot) : WordClass.of word = .opens slot := by
  unfold opened? at h
  split at h
  · rename_i found hfound
    rw [hfound, Option.some.inj h]
  · cases h

theorem lastOpened?_cons (word : Text) (words : List Text) :
    lastOpened? (word :: words) = (lastOpened? words).or (opened? word) := by
  rw [lastOpened?, lastOpened?, List.filterMap_cons]
  cases opened? word with
  | none => rw [Option.or_none]
  | some slot =>
      rw [List.getLast?_cons]
      cases (words.filterMap opened?).getLast? <;> rfl

theorem wordsIn_concat (slot : Slot) (words : List Text) (word : Text) :
    wordsIn slot (words ++ [word]) = wordsIn slot words ++
      if WordClass.of word = .plain ∧ lastOpened? words = some slot then [word] else [] := by
  have hbefore : words.zipIdx.filter (fun entry => WordClass.of entry.1 = .plain ∧
        lastOpened? ((words ++ [word]).take entry.2) = some slot) =
      words.zipIdx.filter fun entry => WordClass.of entry.1 = .plain ∧
        lastOpened? (words.take entry.2) = some slot := by
    apply List.filter_congr
    intro entry hentry
    have hlt : entry.2 < words.length := by
      have := (List.mem_zipIdx hentry).2.1
      omega
    rw [List.take_append_of_le_length (Nat.le_of_lt hlt)]
  rw [wordsIn, List.zipIdx_append, List.filter_append, hbefore, List.map_append, ← wordsIn, List.zipIdx_singleton,
    List.filter_singleton, Nat.zero_add, List.take_left]
  split
  · rename_i h
    rw [decide_eq_true h]
    rfl
  · rename_i h
    rw [decide_eq_false h]
    rfl

end Slot

namespace Clause

deriving instance DecidableEq for Clause

/-- The segments of a list of words: each begins with a keyword of a slot and ends before the next one. -/
def segments : List Text → List Clause
  | [] => []
  | word :: rest =>
    match Slot.opened? word with
    | some slot =>
      { slot, keyword := word, words := rest.takeWhile fun next => Slot.opened? next = none } :: segments rest
    | none => segments rest

/-- The clause without its neutral words. -/
def plain (clause : Clause) : Clause :=
  { clause with words := clause.words.filter fun word => WordClass.of word = .plain }

/-- Whether some words have the segments of others in another order, which is the same one for the segments of each
slot. -/
structure Reorders (words others : List Text) : Prop where
  perm : (segments words).Perm (segments others)
  keeps : ∀ slot, (segments words).filter (·.slot = slot) = (segments others).filter (·.slot = slot)

/-- Whether some words are others with keywords written in another letter case. -/
def Respells (words others : List Text) : Prop :=
  List.Forall₂ (fun word other => word = other ∨ WordClass.of word ≠ .plain ∧ upper word = upper other) words others

/-- The words that come behind the first keyword of a slot and are not neutral, with that keyword. -/
def significant (words : List Text) : List Text :=
  (words.dropWhile fun word => Slot.opened? word = none).filter fun word => WordClass.of word ≠ .neutral

variable {slot : Slot} {words : List Text} {clause : Clause}

/-- The segments make up the words from the first keyword of a slot on. -/
theorem flatMap_written_segments (words : List Text) :
    (segments words).flatMap written = words.dropWhile fun word => Slot.opened? word = none := by
  induction words with
  | nil => rfl
  | cons word words ih =>
      rw [segments]
      cases hopened : Slot.opened? word with
      | none =>
          rw [List.dropWhile_cons_of_pos (by simp [hopened])]
          exact ih
      | some slot =>
          rw [List.dropWhile_cons_of_neg (by simp [hopened])]
          show word :: ((words.takeWhile _) ++ (segments words).flatMap written) = word :: words
          rw [ih, List.takeWhile_append_dropWhile]

theorem of_mem_segments (h : clause ∈ segments words) :
    WordClass.of clause.keyword = .opens clause.slot ∧ ∀ word ∈ clause.words, Slot.opened? word = none := by
  induction words with
  | nil => cases h
  | cons word words ih =>
      rw [segments] at h
      cases hopened : Slot.opened? word with
      | none =>
          rw [hopened] at h
          exact ih h
      | some slot =>
          rw [hopened] at h
          rcases List.mem_cons.mp h with rfl | h
          · exact ⟨Slot.of_eq_opens_of_opened? hopened, fun next hnext => by simpa using List.mem_takeWhile_imp hnext⟩
          · exact ih h

theorem reads_plain (h : clause ∈ segments words) : clause.plain.Reads :=
  ⟨(of_mem_segments h).1, fun _ hword => by simpa using (List.mem_filter.mp hword).2⟩

/-- Without neutral words a segment is a clause. -/
theorem filter_written (h : clause ∈ segments words) :
    clause.written.filter (fun word => WordClass.of word ≠ .neutral) = clause.plain.written := by
  obtain ⟨hkeyword, hwords⟩ := of_mem_segments h
  rw [written, List.filter_cons_of_pos (by simp [hkeyword])]
  refine congrArg (clause.keyword :: ·) (List.filter_congr fun word hword => ?_)
  have hopened := hwords word hword
  cases hclass : WordClass.of word with
  | opens slot => cases (Slot.opened?_of_opens hclass).symm.trans hopened
  | neutral => rfl
  | plain => rfl

theorem significant_eq (words : List Text) : significant words = ((segments words).map plain).flatMap written := by
  rw [significant, ← flatMap_written_segments, List.filter_flatMap, List.flatMap_map]
  exact List.flatMap_congr fun clause hclause => filter_written hclause

theorem wordsOf_map_plain (slot : Slot) (clauses : List Clause) :
    wordsOf slot (clauses.map plain) = (clauses.filter (·.slot = slot)).flatMap (·.plain.words) := by
  rw [wordsOf, List.filter_map, List.flatMap_map]
  rfl

end Clause

namespace FieldDefinition

variable {definition : FieldDefinition} {slot : Slot} {words others : List Text}

/-! ### The words of a slot -/

/-- Reading goes on with the slot that the words so far have left open. -/
theorem readWords_append (opened : Option Slot) (definition : FieldDefinition) (words rest : List Text) :
    readWords opened definition (words ++ rest) =
      readWords ((Slot.lastOpened? words).or opened) (readWords opened definition words) rest := by
  induction words generalizing opened definition with
  | nil => rfl
  | cons word words ih =>
      rw [List.cons_append, Slot.lastOpened?_cons]
      cases hclass : WordClass.of word with
      | opens slot =>
          rw [readWords_opens hclass, readWords_opens hclass, ih, Slot.opened?_of_opens hclass, Option.or_assoc]
          rfl
      | neutral =>
          rw [readWords_neutral hclass, readWords_neutral hclass, ih, Slot.opened?_eq_none_of_neutral hclass,
            Option.or_none]
      | plain =>
          rw [readWords_plain_cons hclass, readWords_plain_cons hclass, ih, Slot.opened?_eq_none_of_plain hclass,
            Option.or_none]

/-- A slot holds what its own words make up. -/
theorem get?_readWords (words : List Text) (slot : Slot) :
    (readWords none {} words).get? slot = (({} : FieldDefinition).appendAll slot (slot.wordsIn words)).get? slot := by
  induction words using List.reverseRecOn with
  | nil => rfl
  | append_singleton words word ih =>
      rw [readWords_append, Slot.wordsIn_concat, appendAll_append, Option.or_none]
      cases hclass : WordClass.of word with
      | opens opened =>
          rw [readWords_opens hclass, if_neg (by simp)]
          exact ih
      | neutral =>
          rw [readWords_neutral hclass, if_neg (by simp)]
          exact ih
      | plain =>
          rw [readWords_plain_cons hclass]
          by_cases hopened : Slot.lastOpened? words = some slot
          · rw [hopened, if_pos ⟨rfl, rfl⟩]
            show ((readWords none {} words).append slot word).get? slot = (append _ slot word).get? slot
            rw [get?_append_self, get?_append_self, ih]
          · rw [if_neg fun h => hopened h.2]
            refine Eq.trans ?_ ih
            cases hlast : Slot.lastOpened? words with
            | none => rfl
            | some other => exact get?_append_of_ne _ (fun heq => hopened (hlast.trans (congrArg some heq.symm))) word

/-! ### The text of a slot -/

/-- Words with a single space between them need no trimming. -/
theorem trim_join_words (h : ∀ word ∈ words, word ≠ [] ∧ ∀ c ∈ word, isBlank c = false) :
    trim (join [' '] words) = join [' '] words := by
  apply trim_eq_self
  · cases words with
    | nil => rfl
    | cons word rest =>
        obtain ⟨hne, hblank⟩ := h word List.mem_cons_self
        obtain ⟨c, tail, rfl⟩ := List.exists_cons_of_ne_nil hne
        rw [join_cons]
        exact hblank c List.mem_cons_self
  · rcases List.eq_nil_or_concat' words with rfl | ⟨front, word, rfl⟩
    · rfl
    · obtain ⟨hne, hblank⟩ := h word (List.mem_append_right _ List.mem_cons_self)
      obtain ⟨c, hc⟩ := Option.isSome_iff_exists.mp (List.getLast?_isSome.mpr hne)
      rw [endsBlank, getLast?_join_concat [' '] front hne, hc]
      exact hblank c (List.mem_of_getLast? hc)

/-- One more word behind those that are not empty. An empty word adds a space, which is trimmed off again. -/
theorem trim_join_append (h : ∀ word ∈ words, word ≠ [] ∧ ∀ c ∈ word, isBlank c = false) {word : Text}
    (hword : ∀ c ∈ word, isBlank c = false) :
    trim (join [' '] words ++ ' ' :: word) = join [' '] (words ++ [word].filter (· ≠ [])) := by
  by_cases hempty : word = []
  · subst hempty
    rw [trim_concat_space, trim_join_words h]
    exact congrArg (join [' ']) (List.append_nil words).symm
  · have hall : ∀ other ∈ words ++ [word], other ≠ [] ∧ ∀ c ∈ other, isBlank c = false := by
      intro other hother
      rcases List.mem_append.mp hother with hmem | hmem
      · exact h other hmem
      · rw [List.mem_singleton.mp hmem]
        exact ⟨hempty, hword⟩
    rw [List.filter_cons_of_pos (by simpa using hempty), List.filter_nil, ← trim_join_words hall]
    by_cases hwords : words = []
    · subst hwords
      simp [trim_space_cons]
    · rw [join_concat _ _ hwords]
      rfl

/-- What a slot holds after some words without white space: those that are not empty, with single spaces. -/
theorem getD_get?_appendAll (h : ∀ word ∈ words, ∀ c ∈ word, isBlank c = false) (slot : Slot) :
    ((({} : FieldDefinition).appendAll slot words).get? slot).getD [] = join [' '] (words.filter (· ≠ [])) := by
  induction words using List.reverseRecOn with
  | nil => cases slot <;> rfl
  | append_singleton words word ih =>
      have hbefore := ih fun other hother => h other (List.mem_append_left _ hother)
      rw [appendAll_append, List.filter_append, ← trim_join_append, ← hbefore]
      · exact congrArg (Option.getD · []) (get?_append_self _ slot word)
      · intro other hother
        obtain ⟨hmem, hne⟩ := List.mem_filter.mp hother
        exact ⟨by simpa using hne, h other (List.mem_append_left _ hmem)⟩
      · exact h word (List.mem_append_right _ List.mem_cons_self)

/-- A clause is there if it has a word, be it an empty one. -/
theorem get?_appendAll_eq_none_iff :
    (({} : FieldDefinition).appendAll slot words).get? slot = none ↔ slot ∈ Slot.clauses ∧ words = [] := by
  rcases List.eq_nil_or_concat' words with rfl | ⟨front, word, rfl⟩
  · cases slot <;> decide
  · rw [appendAll_append]
    refine iff_of_false ?_ fun h => List.append_ne_nil_of_right_ne_nil _ (List.cons_ne_nil _ _) h.2
    exact Option.ne_none_iff_exists'.mpr ⟨_, get?_append_self _ slot word⟩

theorem get?_appendAll_words (h : ∀ word ∈ words, ∀ c ∈ word, isBlank c = false) (slot : Slot) :
    (({} : FieldDefinition).appendAll slot words).get? slot =
      if slot ∈ Slot.clauses ∧ words = [] then none else some (join [' '] (words.filter (· ≠ []))) := by
  split
  · exact get?_appendAll_eq_none_iff.mpr ‹_›
  · rename_i hthere
    obtain ⟨text, htext⟩ := Option.ne_none_iff_exists'.mp (mt get?_appendAll_eq_none_iff.mp hthere)
    rw [← getD_get?_appendAll h slot, htext, Option.getD_some]

/-! ### Segments -/

theorem readWords_dropWhile (definition : FieldDefinition) (words : List Text) :
    readWords none definition (words.dropWhile fun word => Slot.opened? word = none) =
      readWords none definition words := by
  induction words with
  | nil => rfl
  | cons word words ih =>
      cases hclass : WordClass.of word with
      | opens slot => rw [List.dropWhile_cons_of_neg (by simp [Slot.opened?_of_opens hclass])]
      | neutral =>
          rw [List.dropWhile_cons_of_pos (by simp [Slot.opened?_eq_none_of_neutral hclass]), ih,
            readWords_neutral hclass]
      | plain =>
          rw [List.dropWhile_cons_of_pos (by simp [Slot.opened?_eq_none_of_plain hclass]), ih,
            readWords_plain_cons hclass]
          rfl

theorem readWords_filter (opened : Option Slot) (definition : FieldDefinition) (words : List Text) :
    readWords opened definition (words.filter fun word => WordClass.of word ≠ .neutral) =
      readWords opened definition words := by
  induction words generalizing opened definition with
  | nil => rfl
  | cons word words ih =>
      cases hclass : WordClass.of word with
      | opens slot =>
          rw [List.filter_cons_of_pos (by simp [hclass]), readWords_opens hclass, readWords_opens hclass, ih]
      | neutral => rw [List.filter_cons_of_neg (by simp [hclass]), readWords_neutral hclass, ih]
      | plain =>
          rw [List.filter_cons_of_pos (by simp [hclass]), readWords_plain_cons hclass, readWords_plain_cons hclass,
            ih]

theorem readWords_significant (words : List Text) :
    readWords none {} (Clause.significant words) = readWords none {} words := by
  rw [Clause.significant, readWords_filter, readWords_dropWhile]

/-- A slot holds what the plain words of its segments make up. -/
theorem get?_readWords_segments (words : List Text) (slot : Slot) :
    (readWords none {} words).get? slot = (({} : FieldDefinition).appendAll slot
      (((Clause.segments words).filter (·.slot = slot)).flatMap (·.plain.words))).get? slot := by
  have hreads : ∀ clause ∈ (Clause.segments words).map Clause.plain, clause.Reads := by
    intro clause hclause
    obtain ⟨segment, hsegment, rfl⟩ := List.mem_map.mp hclause
    exact Clause.reads_plain hsegment
  rw [← readWords_significant, Clause.significant_eq, get?_readWords_clauses hreads, Clause.wordsOf_map_plain]

theorem readWords_reorders (h : Clause.Reorders words others) : readWords none {} words = readWords none {} others := by
  apply ext_get?
  intro slot
  rw [get?_readWords_segments, get?_readWords_segments, h.keeps]

theorem readWords_respells (h : Clause.Respells words others) (opened : Option Slot) (definition : FieldDefinition) :
    readWords opened definition words = readWords opened definition others := by
  induction h generalizing opened definition with
  | nil => rfl
  | @cons word other words others hword _ ih =>
      rcases hword with rfl | ⟨hkeyword, hupper⟩
      · simp only [readWords, ih]
      · have hclass : WordClass.of word = WordClass.of other := by
          unfold WordClass.of
          rw [hupper]
        cases hopens : WordClass.of word with
        | opens slot => rw [readWords_opens hopens, readWords_opens (hclass ▸ hopens), ih]
        | neutral => rw [readWords_neutral hopens, readWords_neutral (hclass ▸ hopens), ih]
        | plain => exact absurd hopens hkeyword

/-! ### Statements -/

variable {statement : Text}

theorem not_blank_of_mem_statementWords (hspaces : ∀ c ∈ statement, isBlank c = true → c = ' ') {word : Text}
    (hword : word ∈ statementWords statement) {c : Char} (hc : c ∈ word) : isBlank c = false := by
  obtain ⟨hmem, hne⟩ := of_mem_splitOn hword hc
  have htrim : c ∈ trim statement := by
    rw [dropLast?] at hmem
    split at hmem
    · exact List.dropLast_subset _ hmem
    · exact hmem
  have hstatement : c ∈ statement :=
    (List.dropWhile_suffix isBlank).subset ((trimEnd_isPrefix _).subset htrim)
  exact eq_false_of_ne_true fun hblank => hne (hspaces c hstatement hblank)

/-- A slot of a statement without other white space than spaces holds its words that are not empty, and a clause is
there if it has a word at all. The same words for each slot give the same definition: words in front of the first
keyword of a slot and neutral ones may be left out or added, segments reordered and keywords respelled. -/
theorem ofStatement_by_words (hspaces : ∀ c ∈ statement, isBlank c = true → c = ' ') :
    (∀ slot : Slot, (ofStatement statement).get? slot =
      if slot ∈ Slot.clauses ∧ slot.wordsIn (statementWords statement) = [] then none
      else some (join [' '] ((slot.wordsIn (statementWords statement)).filter (· ≠ [])))) ∧
    (∀ other, Clause.significant (statementWords statement) = Clause.significant (statementWords other) →
      ofStatement statement = ofStatement other) ∧
    (∀ other, Clause.Reorders (statementWords statement) (statementWords other) →
      ofStatement statement = ofStatement other) ∧
    (∀ other, Clause.Respells (statementWords statement) (statementWords other) →
      ofStatement statement = ofStatement other) := by
  refine ⟨?_, ?_, ?_, ?_⟩
  · intro slot
    rw [ofStatement, get?_readWords, get?_appendAll_words]
    intro word hword c hc
    obtain ⟨entry, hentry, rfl⟩ := List.mem_map.mp hword
    have hmem := List.mem_zipIdx (List.mem_filter.mp hentry).1
    exact not_blank_of_mem_statementWords hspaces (hmem.2.2 ▸ List.getElem_mem _) hc
  · intro other h
    rw [ofStatement, ofStatement, ← readWords_significant, h, readWords_significant]
  · intro other h
    exact readWords_reorders h
  · intro other h
    exact readWords_respells h none {}

/-- A repeated type around a field with a neutral word, and a value without text. -/
def scatteredStatement : Text := "type int  FIELD tags ON TYPE <b> VALUE ;"

/-- The same segments in another order. -/
def reorderedStatement : Text := "VALUE  type int  TYPE <b> FIELD tags ON"

theorem ofStatement_by_words_of_scattered :
    (∀ c ∈ scatteredStatement, isBlank c = true → c = ' ') ∧
      Clause.Reorders (statementWords scatteredStatement) (statementWords reorderedStatement) ∧
      (ofStatement scatteredStatement).get? .fieldType = some "int <b>" ∧
      (ofStatement scatteredStatement).get? .value = some [] ∧
      ofStatement scatteredStatement = ofStatement reorderedStatement := by
  have hspaces : ∀ c ∈ scatteredStatement, isBlank c = true → c = ' ' := by
    have hall : scatteredStatement.all (fun c => !isBlank c || c = ' ') = true := by decide +kernel
    intro c hc hblank
    simpa [hblank] using List.all_eq_true.mp hall c hc
  have hsegments : Clause.segments (statementWords scatteredStatement) =
      [⟨.fieldType, "type", ["int", []]⟩, ⟨.name, "FIELD", ["tags", "ON"]⟩, ⟨.fieldType, "TYPE", ["<b>"]⟩,
        ⟨.value, "VALUE", [[]]⟩] := by decide +kernel
  have hother : Clause.segments (statementWords reorderedStatement) =
      [⟨.value, "VALUE", [[]]⟩, ⟨.fieldType, "type", ["int", []]⟩, ⟨.fieldType, "TYPE", ["<b>"]⟩,
        ⟨.name, "FIELD", ["tags", "ON"]⟩] := by decide +kernel
  have hreorders : Clause.Reorders (statementWords scatteredStatement) (statementWords reorderedStatement) := by
    constructor
    · rw [hsegments, hother]
      decide
    · intro slot
      rw [hsegments, hother]
      cases slot <;> rfl
  obtain ⟨hslots, -, hlaw, -⟩ := ofStatement_by_words hspaces
  refine ⟨hspaces, hreorders, ?_, ?_, hlaw _ hreorders⟩
  · rw [hslots]
    decide +kernel
  · rw [hslots]
    decide +kernel

end FieldDefinition

end SurrealZod
