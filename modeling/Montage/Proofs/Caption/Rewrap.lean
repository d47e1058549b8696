import Montage.Proofs.Caption.Greedy

/-!
# Wrapping twice

The words of a finished line, filled once more from the start, meet the same lengths as when the
line was filled, so they make that line again. Pieces of a word are words of the budget's length by
then and need not be cut. No line holds a line feed, so the paragraphs of a wrapped text are its
lines, and wrapping it changes nothing.
-/

namespace Montage.Caption

variable {budget : Nat} {word : List Char} {kept given : List (List Char)} {line : OpenLine}

/-! ## Lines -/

/-- Filling the words of a line from the start leads back to the line, whatever words follow. -/
def OpenLine.Refills (budget : Nat) (line : OpenLine) : Prop :=
  ∀ more, fillLines budget {} (line.words ++ more) = fillLines budget line more

namespace OpenLine

theorem refills_empty (budget : Nat) : Refills budget {} := by
  intro more
  rfl

theorem refills_ofWord (fits : word.length ≤ budget) : Refills budget (ofWord word) := by
  intro more
  rw [words_ofWord, List.singleton_append, fillLines_start, cutWord_of_fits fits]
  rfl

/-- A word that joins a line joins it again when the line is refilled. -/
theorem Refills.push (refills : Refills budget line) (fits : line.length + word.length ≤ budget) :
    Refills budget (line.push word) := by
  intro more
  rw [words_push, List.append_assoc, List.singleton_append, refills, fillLines, if_pos fits]

theorem Refills.of_mem_close (refills : Refills budget line) (member : kept ∈ line.close) :
    fillLines budget {} kept = [kept] := by
  have again := refills []
  rw [List.append_nil, fillLines] at again
  by_cases started : line.words = []
  · rw [close, List.reverse_eq_nil_iff.mp started] at member
    contradiction
  · rw [close_of_words started] at member again
    rw [List.mem_singleton.mp member, again]

end OpenLine

/-- The words of a finished line fill that line alone. -/
theorem fillLines_of_mem_fillLines (positive : 0 < budget)
    (member : kept ∈ fillLines budget {} given) : fillLines budget {} kept = [kept] := by
  suffices all : ∀ kept ∈ fillLines budget {} given, fillLines budget {} kept = [kept] from
    all kept member
  refine forall_mem_fillLines (OpenLine.Refills budget) ?_ ?_ ?_ (OpenLine.refills_empty budget)
  · intro line refills kept closed
    exact refills.of_mem_close closed
  · intro line refills word _ fits
    exact refills.push fits
  · intro word _
    obtain ⟨pieces, remainder⟩ := length_of_cutWord positive word
    constructor
    · intro piece cut
      exact OpenLine.refills_ofWord (pieces piece cut).le []
    · exact OpenLine.refills_ofWord remainder

/-- A line of a paragraph is a paragraph of one line. -/
theorem wrapParagraph_of_mem_wrapParagraph {paragraph line : List Char} (positive : 0 < budget)
    (member : line ∈ wrapParagraph budget paragraph) : wrapParagraph budget line = [line] := by
  rcases eq_of_mem_wrapParagraph member with rfl | ⟨kept, listed, rfl⟩
  · exact wrapParagraph_of_blank rfl
  · obtain ⟨some, solid⟩ := isWord_of_mem_fillLines listed
    have words : Text.words (joinWords kept) = kept := Text.words_joined solid
    have spoken : Text.words (joinWords kept) ≠ [] := by
      rw [words]
      exact some
    rw [(wrapParagraph_of_words budget spoken).2, words, fillLines_of_mem_fillLines positive listed,
      List.map_singleton]

/-! ## Texts -/

/-- No line holds a line feed. -/
theorem lineFeed_not_mem_wrap {text line : List Char} {budget : Int} (positive : 1 ≤ budget)
    (member : line ∈ wrap text budget) : '\n' ∉ line := by
  rw [wrap, if_neg (by omega)] at member
  obtain ⟨paragraph, listed, member⟩ := List.mem_flatMap.mp member
  intro broken
  rcases mem_of_mem_wrapParagraph member broken with inside | space
  · have separates := Text.not_separates_of_mem_pieces listed inside
    contradiction
  · contradiction

/-- Every text has lines. -/
theorem wrap_ne_nil (text : List Char) (budget : Int) : wrap text budget ≠ [] := by
  have paragraphs : Text.paragraphs text ≠ [] := by
    rw [Text.paragraphs, Text.pieces_eq_splitOnP]
    exact List.splitOnP_ne_nil _ text
  rw [wrap]
  split
  · exact paragraphs
  · obtain ⟨first, rest, listed⟩ := List.exists_cons_of_ne_nil paragraphs
    rw [listed, List.flatMap_cons]
    exact List.append_ne_nil_of_left_ne_nil (wrapParagraph_ne_nil _ first) _

/-- Wrapping a wrapped text again under the same budget gives the same lines. -/
theorem wrap_idempotent (text : List Char) (budget : Int) :
    wrap (List.intercalate ['\n'] (wrap text budget)) budget = wrap text budget := by
  rcases le_or_gt budget 0 with unlimited | positive
  · rw [wrap.eq_1 text, if_pos unlimited, Text.intercalate_paragraphs, wrap, if_pos unlimited]
  · have lines : Text.paragraphs (List.intercalate ['\n'] (wrap text budget)) = wrap text budget :=
      Text.paragraphs_intercalate (wrap_ne_nil text budget)
        fun line member => lineFeed_not_mem_wrap positive member
    have alone : ∀ line ∈ wrap text budget, wrapParagraph budget.toNat line = [line] := by
      intro line member
      rw [wrap, if_neg (by omega)] at member
      obtain ⟨paragraph, -, member⟩ := List.mem_flatMap.mp member
      exact wrapParagraph_of_mem_wrapParagraph (by omega) member
    rw [wrap, if_neg (by omega), lines, List.flatMap_def, List.map_congr_left alone,
      ← List.flatMap_def, List.flatMap_singleton']

example : wrap "hi\nabcd\nefgh\nij\n\nk".toList 4 =
    ["hi", "abcd", "efgh", "ij", "", "k"].map String.toList := by decide +kernel

end Montage.Caption
