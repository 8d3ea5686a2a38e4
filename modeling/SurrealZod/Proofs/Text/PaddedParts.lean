import Mathlib.Data.List.Infix
import SurrealZod.Proofs.Text.Nesting

/-! Parts with white space around them. Joined by a separator and split again at this separator outside of all
brackets, they are the same parts, if each one closes the brackets that it opens and shields the separators that it
has. Splitting loses nothing of any text: with their white space and the separators, the pieces make it up. -/

namespace SurrealZod.Text

/-- A text as it is written with white space around it, which does not count. -/
structure Padded where
  text : Text
  before : Text
  after : Text
  blank_before : ∀ c ∈ before, isBlank c = true
  blank_after : ∀ c ∈ after, isBlank c = true
  trimmed : trim text = text

namespace Padded

def written (part : Padded) : Text := part.before ++ part.text ++ part.after

theorem trim_written (part : Padded) : trim part.written = part.text := by
  rw [written, trim_append_blanks _ part.blank_after, trim_blanks_append part.blank_before, part.trimmed]

/-- Each text is its trimmed text with white space around it. -/
theorem exists_written_eq (t : Text) : ∃ part : Padded, part.written = t ∧ part.text = trim t := by
  obtain ⟨before, after, hbefore, hafter, ht⟩ := exists_eq_append_trim t
  exact ⟨⟨trim t, before, after, hbefore, hafter, trim_trim t⟩, ht.symm, rfl⟩

theorem map_trim_written (parts : List Padded) : (parts.map (·.written)).map trim = parts.map (·.text) := by
  rw [List.map_map]
  exact List.map_congr_left fun part _ => part.trim_written

variable {part : Padded} {separator : Char}

theorem balanced_written (h : Balanced part.text) : Balanced part.written :=
  ((balanced_blanks part.blank_before).append h).append (balanced_blanks part.blank_after)

theorem uncut_written (hseparator : isBlank separator = false) (hbalanced : Balanced part.text)
    (h : Uncut separator part.text) : Uncut separator part.written :=
  h.pad hseparator part.blank_before part.blank_after hbalanced.closed

end Padded

/-- Whether a bracket is open wherever the text has a separator. -/
def Shields (separator : Char) (t : Text) : Prop := ∀ front, front ++ [separator] <+: t → 0 < balance front

instance (separator : Char) (t : Text) : Decidable (Shields separator t) :=
  decidable_of_iff (∀ front ∈ t.inits, front ++ [separator] <+: t → 0 < balance front)
    ⟨fun h front hfront => h front ((List.mem_inits _ _).mpr ((List.prefix_append _ _).trans hfront)) hfront,
      fun h front _ => h front⟩

instance (t : Text) : Decidable (Balanced t) :=
  decidable_of_iff ((∀ front ∈ t.inits, 0 ≤ balance front) ∧ balance t = 0)
    ⟨fun h => ⟨fun front hfront => h.1 front ((List.mem_inits _ _).mpr hfront), h.2⟩,
      fun h => ⟨fun front hfront => h.nonneg front ((List.mem_inits _ _).mp hfront), h.closed⟩⟩

variable {separator : Char} {t : Text}

/-- A shielded separator does not divide a text. -/
theorem Shields.uncut (h : Shields separator t) : Uncut separator t := by
  by_contra hcut
  obtain ⟨front, behind, rfl, -, -, hclosed⟩ := exists_cut hcut
  have hopen := h front ⟨behind, by rw [List.append_assoc, List.singleton_append]⟩
  omega

/-- Splitting reads back what a separator joins: parts that close the brackets they open, and no others, and that have
the separator in brackets only, whatever white space is around them. The pieces of any text, trimmed to its parts, make
up this text with the separators between them. -/
theorem splitTopLevel_join (separator : Char) :
    (nesting separator = 0 → isBlank separator = false → ∀ parts : List Padded, parts ≠ [] →
      (∀ part ∈ parts, Balanced part.text ∧ Shields separator part.text) →
      splitTopLevel separator (join [separator] (parts.map (·.written))) = parts.map (·.text)) ∧
    ∀ t, splitTopLevel separator t = (pieces separator 0 t).map trim ∧ join [separator] (pieces separator 0 t) = t := by
  refine ⟨fun hnesting hblank parts hne h => ?_, fun t => ⟨rfl, join_pieces separator 0 t⟩⟩
  have hwritten : ∀ piece ∈ parts.map (·.written), Balanced piece ∧ Uncut separator piece := by
    intro piece hpiece
    obtain ⟨part, hpart, rfl⟩ := List.mem_map.mp hpiece
    obtain ⟨hbalanced, hshields⟩ := h part hpart
    exact ⟨Padded.balanced_written hbalanced, Padded.uncut_written hblank hbalanced hshields.uncut⟩
  rw [splitTopLevel, pieces_join hnesting (mt List.map_eq_nil_iff.mp hne) hwritten, Padded.map_trim_written]

/-- Three parts: one with commas in brackets, an empty one between spaces, and one behind a line break. -/
theorem splitTopLevel_join_of_nested_commas :
    ∃ parts : List Padded, parts ≠ [] ∧ join [','] (parts.map (·.written)) = "a<b, (c,d)> ,  ,\ne" ∧
      splitTopLevel ',' (join [','] (parts.map (·.written))) = ["a<b, (c,d)>".toList, [], ['e']] := by
  have hspace : ∀ c ∈ [' '], isBlank c = true := List.forall_mem_singleton.mpr rfl
  have hline : ∀ c ∈ ['\n'], isBlank c = true := List.forall_mem_singleton.mpr rfl
  have hnone : ∀ c ∈ ([] : Text), isBlank c = true := List.forall_mem_nil _
  refine ⟨[⟨"a<b, (c,d)>".toList, [], [' '], hnone, hspace, by decide⟩, ⟨[], [' '], [' '], hspace, hspace, rfl⟩,
    ⟨['e'], ['\n'], [], hline, hnone, by decide⟩], List.cons_ne_nil _ _, rfl, ?_⟩
  refine (splitTopLevel_join ',').1 (by decide) (by decide) _ (List.cons_ne_nil _ _) ?_
  simp only [List.forall_mem_cons]
  decide

end SurrealZod.Text
