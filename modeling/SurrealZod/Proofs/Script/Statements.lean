import SurrealZod.Proofs.Text.Words
import SurrealZod.Script.Statements

/-! The statements of a schema text. Whatever the text is, single spaces divide each statement into words. -/

namespace SurrealZod

open Text

namespace Script

theorem isWord_of_mem_statements {text statement word : Text} (h : statement ∈ statements text)
    (hword : word ∈ statement.splitOn ' ') : IsWord word := by
  obtain ⟨hmem, hne⟩ := List.mem_filter.mp h
  obtain ⟨piece, hpiece, rfl⟩ := List.mem_map.mp hmem
  have hwords : ∀ word ∈ words piece, IsWord word := by
    intro word hword
    obtain ⟨hrun, hnonempty⟩ := List.mem_filter.mp hword
    refine ⟨by simpa using hnonempty, fun c hc => (of_mem_splitOnP hrun hc).2, fun hsemicolon => ?_⟩
    exact (of_mem_splitOn hpiece (of_mem_splitOnP hrun hsemicolon).1).2 rfl
  have hsome : words piece ≠ [] := by
    intro hnil
    rw [squeeze, hnil] at hne
    cases hne
  rw [squeeze, splitOn_join_words hwords hsome] at hword
  exact hwords word hword

end Script

end SurrealZod
