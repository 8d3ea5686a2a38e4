import SurrealZod.Proofs.Script.Statements
import SurrealZod.Proofs.Text.Spacing

/-! Statements line by line. A comment is taken out together with the white space in front of it, over line ends and
all, but a line end is left behind it, so the words around it stay apart: what is read is what is read from the
lines that are no comments. -/

namespace SurrealZod

open Text

namespace Script

/-- Whether a comment begins at the first character of a line that is no white space. -/
def isComment (line : Text) : Bool := startsComment (trimStart line)

/-- The lines of a text that are no comments. -/
def codeLines (text : Text) : List Text := (text.splitOn '\n').filter (!isComment ·)

/-- The statements of a text by its lines: those that are no comments, divided at semicolons, with single spaces. -/
def lineStatements (text : Text) : List Text :=
  (((join ['\n'] (codeLines text)).splitOn ';').map fun piece => trim (singleSpaced piece)).filter (!·.isEmpty)

variable {line text blanks tail : Text} {lines : List Text}

/-! ### Statements of tokens -/

/-- The statements that a list of tokens makes up. -/
def ofTokens (tokens : List Text) : List Text := ((tokens.splitOn ";".toList).map (join [' '])).filter (!·.isEmpty)

theorem ofTokens_tokens (t : Text) : ofTokens (tokens t) = ((t.splitOn ';').map squeeze).filter (!·.isEmpty) := by
  rw [ofTokens, splitOn_tokens, List.map_map]
  rfl

theorem ofTokens_append (as bs : List Text) : ofTokens (as ++ ";".toList :: bs) = ofTokens as ++ ofTokens bs := by
  rw [ofTokens, List.splitOn_append_cons_self, List.map_append, List.filter_append]
  rfl

theorem statements_eq (text : Text) : statements text = ofTokens (tokens (dropComments (.start []) text)) :=
  (ofTokens_tokens _).symm

theorem tokens_join_lines (lines : List Text) : tokens (join ['\n'] lines) = lines.flatMap tokens := by
  induction lines with
  | nil => rfl
  | cons line rest ih =>
      cases rest with
      | nil => simp
      | cons next rest =>
          rw [join, List.intercalate_cons_cons, List.append_assoc, List.singleton_append,
            tokens_append_blank (by decide), ← join, ih]
          rfl

theorem lineStatements_eq (text : Text) : lineStatements text = ofTokens ((codeLines text).flatMap tokens) := by
  have hsqueeze : (fun piece => trim (singleSpaced piece)) = squeeze := funext trim_singleSpaced
  rw [lineStatements, hsqueeze, ← ofTokens_tokens, tokens_join_lines]

/-! ### Reading a line -/

/-- White space that is held back at the beginning of a line does not show in the tokens. -/
theorem tokens_dropComments_start (h : ∀ c ∈ blanks, isBlank c = true) (text : Text) :
    tokens (dropComments (.start blanks) text) = tokens (dropComments (.start []) text) := by
  induction text generalizing blanks with
  | nil =>
      have hall := tokens_blanks_append h []
      rwa [List.append_nil] at hall
  | cons c text ih =>
      rw [dropComments, dropComments]
      split
      · rename_i hc
        have hone : ∀ d ∈ [c], isBlank d = true := List.forall_mem_singleton.mpr hc
        rw [ih (List.forall_mem_append.mpr ⟨h, hone⟩), List.nil_append, ih hone]
      · split
        · rfl
        · exact tokens_blanks_append h _

theorem tokens_dropComments_newline (text : Text) :
    tokens (dropComments (.start []) ('\n' :: text)) = tokens (dropComments (.start []) text) :=
  tokens_dropComments_start (List.forall_mem_singleton.mpr rfl) text

/-- What comes behind a line: nothing, or its end and further lines. -/
def IsTail (tail : Text) : Prop := tail = [] ∨ ∃ rest, tail = '\n' :: rest

theorem startsComment_iff : startsComment text = true ↔
    "--".toList <+: text ∨ "//".toList <+: text ∨ "#".toList <+: text := by
  rcases text with _ | ⟨c, _ | ⟨d, rest⟩⟩
  · decide
  · unfold startsComment
    split <;> simp_all [List.cons_prefix_cons, @eq_comm _ _ c]
  · unfold startsComment
    split <;> simp_all [List.cons_prefix_cons, @eq_comm _ _ c, @eq_comm _ _ d]

/-- A mark without line ends does not go on behind a line. -/
theorem isPrefix_append_tail {mark : Text} (hmark : '\n' ∉ mark) (htail : IsTail tail) (line : Text) :
    mark <+: line ++ tail ↔ mark <+: line := by
  refine ⟨fun h => ?_, fun h => h.trans (List.prefix_append line tail)⟩
  induction line generalizing mark with
  | nil =>
      cases mark with
      | nil => exact List.nil_prefix
      | cons c mark =>
          rcases htail with rfl | ⟨rest, rfl⟩
          · exact h
          · exact absurd (List.cons_prefix_cons.mp h).1 fun heq => hmark (heq ▸ List.mem_cons_self)
  | cons d line ih =>
      cases mark with
      | nil => exact List.nil_prefix
      | cons c mark =>
          obtain ⟨rfl, hrest⟩ := List.cons_prefix_cons.mp h
          exact List.cons_prefix_cons.mpr ⟨rfl, ih (fun hmem => hmark (List.mem_cons_of_mem _ hmem)) hrest⟩

theorem startsComment_append (htail : IsTail tail) (line : Text) :
    startsComment (line ++ tail) = startsComment line := by
  rw [Bool.eq_iff_iff, startsComment_iff, startsComment_iff, isPrefix_append_tail (by decide) htail,
    isPrefix_append_tail (by decide) htail, isPrefix_append_tail (by decide) htail]

/-- Behind the mark of a comment nothing is read up to the end of the line. -/
theorem tokens_dropComments_comment (hline : '\n' ∉ line) (htail : IsTail tail) :
    tokens (dropComments .comment (line ++ tail)) = tokens (dropComments (.start []) tail) := by
  induction line with
  | nil =>
      rcases htail with rfl | ⟨rest, rfl⟩
      · rfl
      · rw [tokens_dropComments_newline]
        exact tokens_cons_blank (by decide) _
  | cons c line ih =>
      obtain ⟨hc, hrest⟩ := not_or.mp (mt List.mem_cons.mpr hline)
      rw [List.cons_append, dropComments, if_neg (Ne.symm hc)]
      exact ih hrest

/-- Code is read as it is up to the end of the line. -/
theorem dropComments_code (hline : '\n' ∉ line) (tail : Text) :
    dropComments .code (line ++ tail) = line ++ dropComments .code tail := by
  induction line with
  | nil => rfl
  | cons c line ih =>
      obtain ⟨hc, hrest⟩ := not_or.mp (mt List.mem_cons.mpr hline)
      rw [List.cons_append, dropComments, if_neg (Ne.symm hc), ih hrest]
      rfl

theorem tokens_append_code (htail : IsTail tail) (code : Text) :
    tokens (code ++ dropComments .code tail) = tokens code ++ tokens (dropComments (.start []) tail) := by
  rcases htail with rfl | ⟨rest, rfl⟩
  · exact (congrArg tokens (List.append_nil code)).trans (List.append_nil _).symm
  · rw [tokens_dropComments_newline]
    exact tokens_append_blank (by decide) code _

/-- A line gives its tokens, unless it is a comment, and then reading starts anew. -/
theorem tokens_dropComments_line (hline : '\n' ∉ line) (htail : IsTail tail) :
    tokens (dropComments (.start []) (line ++ tail)) =
      (if isComment line then [] else tokens line) ++ tokens (dropComments (.start []) tail) := by
  induction line with
  | nil => rfl
  | cons c line ih =>
      obtain ⟨hc, hrest⟩ := not_or.mp (mt List.mem_cons.mpr hline)
      rw [List.cons_append, dropComments]
      cases hblank : isBlank c with
      | true =>
          have hcomment : isComment (c :: line) = isComment line := by
            rw [isComment, trimStart, List.dropWhile_cons_of_pos hblank]
            rfl
          rw [if_pos rfl, hcomment, tokens_cons_blank hblank, ← ih hrest]
          exact tokens_dropComments_start (by simpa using hblank) _
      | false =>
          have hcomment : isComment (c :: line) = startsComment (c :: line) := by
            rw [isComment, trimStart, List.dropWhile_cons_of_neg (by simp [hblank])]
          rw [if_neg Bool.false_ne_true, hcomment, ← List.cons_append, startsComment_append htail]
          cases startsComment (c :: line) with
          | true => exact tokens_dropComments_comment hrest htail
          | false =>
              rw [if_neg Bool.false_ne_true, if_neg Bool.false_ne_true, dropComments_code hrest, List.nil_append,
                ← List.cons_append]
              exact tokens_append_code htail _

/-! ### Reading all lines -/

theorem tokens_dropComments_lines (hlines : ∀ line ∈ lines, '\n' ∉ line) :
    tokens (dropComments (.start []) (join ['\n'] lines)) = (lines.filter (!isComment ·)).flatMap tokens := by
  induction lines with
  | nil => rfl
  | cons line rest ih =>
      have hline := hlines line List.mem_cons_self
      have hrest := ih fun other hother => hlines other (List.mem_cons_of_mem _ hother)
      have htail : ∃ tail, IsTail tail ∧ join ['\n'] (line :: rest) = line ++ tail ∧
          tokens (dropComments (.start []) tail) = tokens (dropComments (.start []) (join ['\n'] rest)) := by
        cases rest with
        | nil => exact ⟨[], Or.inl rfl, by simp, rfl⟩
        | cons next rest =>
            refine ⟨'\n' :: join ['\n'] (next :: rest), Or.inr ⟨_, rfl⟩, ?_, tokens_dropComments_newline _⟩
            rw [join, List.intercalate_cons_cons, List.append_assoc, List.singleton_append]
      obtain ⟨tail, htail, hjoin, htokens⟩ := htail
      rw [hjoin, tokens_dropComments_line hline htail, htokens, hrest]
      cases hcomment : isComment line with
      | true => rw [if_pos rfl, List.filter_cons_of_neg (by simp [hcomment]), List.nil_append]
      | false =>
          rw [if_neg Bool.false_ne_true, List.filter_cons_of_pos (by simp [hcomment]), List.flatMap_cons]

theorem newline_not_mem_of_mem_lines (h : line ∈ text.splitOn '\n') : '\n' ∉ line := fun hmem =>
  (of_mem_splitOn h hmem).2 rfl

theorem tokens_dropComments (text : Text) :
    tokens (dropComments (.start []) text) = (codeLines text).flatMap tokens := by
  have hjoin : join ['\n'] (text.splitOn '\n') = text := List.intercalate_splitOn '\n'
  have hlines : ∀ line ∈ text.splitOn '\n', '\n' ∉ line := fun _ => newline_not_mem_of_mem_lines
  conv_lhs => rw [← hjoin, tokens_dropComments_lines hlines]
  rfl

theorem codeLines_join (hne : lines ≠ []) (hlines : ∀ line ∈ lines, '\n' ∉ line) :
    codeLines (join ['\n'] lines) = lines.filter (!isComment ·) := by
  rw [codeLines, List.splitOn_intercalate '\n' hlines hne]

theorem semicolon_not_mem_of_mem_statements {statement : Text} (h : statement ∈ statements text) :
    ';' ∉ statement := by
  intro hmem
  have hjoin : join [' '] (statement.splitOn ' ') = statement := List.intercalate_splitOn ' '
  rw [← hjoin] at hmem
  rcases mem_join hmem with heq | ⟨word, hword, hc⟩
  · cases heq
  · exact (isWord_of_mem_statements h hword).semicolon_not_mem hc

theorem codeLines_append (s t : Text) : codeLines (s ++ '\n' :: t) = codeLines s ++ codeLines t := by
  rw [codeLines, List.splitOn_append_cons_self, List.filter_append]
  rfl

/-- The statements of a text are those of its lines that are no comments. Each is made of words with single spaces
between them, a further comment line changes nothing, and a semicolon on a line of its own divides a text. -/
theorem statements_by_lines (text : Text) :
    statements text = lineStatements text ∧
      (∀ statement ∈ statements text, statement ≠ [] ∧ ';' ∉ statement ∧
        ∀ word ∈ statement.splitOn ' ', word ≠ [] ∧ ∀ c ∈ word, isBlank c = false) ∧
      (∀ above below comment, text.splitOn '\n' = above ++ below → '\n' ∉ comment → isComment comment = true →
        statements (join ['\n'] (above ++ comment :: below)) = statements text) ∧
      ∀ other, statements (text ++ "\n;\n" ++ other) = statements text ++ statements other := by
  refine ⟨?_, ?_, ?_, ?_⟩
  · rw [statements_eq, lineStatements_eq, tokens_dropComments]
  · intro statement hstatement
    refine ⟨?_, semicolon_not_mem_of_mem_statements hstatement, fun word hword => ?_⟩
    · simpa using (List.mem_filter.mp hstatement).2
    · have hisWord := isWord_of_mem_statements hstatement hword
      exact ⟨hisWord.ne_nil, hisWord.not_blank⟩
  · intro above below comment htext hcomment hisComment
    have hlines : ∀ line ∈ above ++ comment :: below, '\n' ∉ line := by
      intro line hline
      rcases List.mem_append.mp hline with h | h
      · exact newline_not_mem_of_mem_lines (htext ▸ List.mem_append_left below h)
      · rcases List.mem_cons.mp h with rfl | h
        · exact hcomment
        · exact newline_not_mem_of_mem_lines (htext ▸ List.mem_append_right above h)
    have hne : above ++ comment :: below ≠ [] := List.append_ne_nil_of_right_ne_nil _ (List.cons_ne_nil _ _)
    rw [statements_eq, statements_eq, tokens_dropComments, tokens_dropComments, codeLines_join hne hlines, codeLines,
      htext, List.filter_append, List.filter_append, List.filter_cons_of_neg (by simp [hisComment])]
  · intro other
    have hdivider : codeLines (text ++ "\n;\n" ++ other) = codeLines text ++ ([';'] :: codeLines other) := by
      rw [List.append_assoc]
      exact (codeLines_append text _).trans (congrArg (codeLines text ++ ·) (codeLines_append [';'] other))
    rw [statements_eq, statements_eq, statements_eq, tokens_dropComments, tokens_dropComments, tokens_dropComments,
      hdivider, List.flatMap_append, List.flatMap_cons, ← ofTokens_append]
    rfl

example : statements "a;b\n\n \t-- c;\n#d\n e; -- f" = ["a", "b e", "-- f"] := by decide +kernel

end Script

end SurrealZod
