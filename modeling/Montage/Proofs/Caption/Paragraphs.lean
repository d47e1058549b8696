import Montage.Proofs.Caption.Wrap

/-!
# The lines of paragraphs

Every paragraph has lines of its own, in the order of the paragraphs. The words that are read back
from the lines are those of the paragraph, in their order, but that words longer than the budget
stand there in parts. The characters of words are therefore all kept, and what separates words is
one space or the end of a line.
-/

namespace Montage.Caption

variable {text : List Char}

/-- The parts of a word that stand on lines. Only a word longer than the budget has more than
one. -/
structure IsCut (budget : Int) (word : List Char) (parts : List (List Char)) : Prop where
  whole : parts.flatten = word
  uncut : word.length ≤ budget → parts = [word]

/-- Lines hold a paragraph and nothing else, and break only words that are longer than the
budget. -/
structure Holds (budget : Int) (paragraph : List Char) (lines : List (List Char)) : Prop where
  nonempty : lines ≠ []
  blank : (∀ character ∈ paragraph, Text.isBlank character = true) → lines = [[]]
  letters : (lines.flatten.filter fun character => !Text.isBlank character) =
    paragraph.filter fun character => !Text.isBlank character
  cut : ∃ parts, List.Forall₂ (IsCut budget) (Text.words paragraph) parts ∧
    lines.flatMap Text.words = parts.flatten
  uncut : ∀ word ∈ Text.words paragraph, word.length ≤ budget →
    ∃ line ∈ lines, word ∈ Text.words line
  spaced : ∀ line ∈ lines, Text.Spaced line

/-- The words of the lines of a paragraph are the parts of its words. -/
theorem flatMap_words_wrapParagraph (budget : Nat) (paragraph : List Char) :
    (wrapParagraph budget paragraph).flatMap Text.words =
      (Text.words paragraph).flatMap (cutParts budget) := by
  by_cases spoken : Text.words paragraph = []
  · rw [wrapParagraph_of_blank spoken, spoken]
    rfl
  · have joined : ∀ kept ∈ fillLines budget {} (Text.words paragraph),
        Text.words (joinWords kept) = kept := by
      intro kept member
      exact Text.words_joined (isWord_of_mem_fillLines member).2
    calc (wrapParagraph budget paragraph).flatMap Text.words
        = ((fillLines budget {} (Text.words paragraph)).map joinWords).flatMap Text.words := by
          rw [(wrapParagraph_of_words budget spoken).2]
      _ = ((fillLines budget {} (Text.words paragraph)).map
            fun kept => Text.words (joinWords kept)).flatten := by
          rw [List.flatMap_def, List.map_map, Function.comp_def]
      _ = (fillLines budget {} (Text.words paragraph)).flatten := by
          rw [List.map_congr_left joined, List.map_id']
      _ = (Text.words paragraph).flatMap (cutParts budget) := flatten_fillLines budget {} _

/-- The lines of a paragraph are spaced. -/
theorem spaced_of_mem_wrapParagraph {budget : Nat} {line : List Char}
    (member : line ∈ wrapParagraph budget text) : Text.Spaced line := by
  rcases eq_of_mem_wrapParagraph member with rfl | ⟨kept, listed, rfl⟩
  · exact Text.spaced_nil
  · obtain ⟨some, solid⟩ := isWord_of_mem_fillLines listed
    exact Text.spaced_joined some solid

/-- Without its blanks a text is what its words are together, whatever lines they stand on. -/
theorem filter_flatten_lines (lines : List (List Char)) :
    (lines.flatten.filter fun character => !Text.isBlank character) =
      (lines.flatMap Text.words).flatten := by
  induction lines with
  | nil => rfl
  | cons line rest ih =>
      rw [List.flatten_cons, List.filter_append, ih, List.flatMap_cons, List.flatten_append,
        Text.flatten_words]

theorem isCut_cutParts (budget : Nat) (word : List Char) :
    IsCut budget word (cutParts budget word) := by
  constructor
  · exact flatten_cutParts budget word
  · intro fits
    exact cutParts_of_fits (by omega)

/-- The lines of a paragraph hold it. -/
theorem holds_wrapParagraph (budget : Nat) (paragraph : List Char) :
    Holds budget paragraph (wrapParagraph budget paragraph) := by
  have words := flatMap_words_wrapParagraph budget paragraph
  constructor
  · exact wrapParagraph_ne_nil budget paragraph
  · intro blank
    exact wrapParagraph_of_blank (Text.words_eq_nil_iff.mpr blank)
  · rw [filter_flatten_lines, words, flatten_flatMap_cutParts, Text.flatten_words]
  · refine ⟨(Text.words paragraph).map (cutParts budget), ?_, ?_⟩
    · apply List.forall₂_map_right_iff.mpr
      apply List.forall₂_same.mpr
      intro word _
      exact isCut_cutParts budget word
    · rw [words, List.flatMap_def]
  · intro word member fits
    apply List.mem_flatMap.mp
    rw [words]
    apply List.mem_flatMap.mpr
    refine ⟨word, member, ?_⟩
    rw [(isCut_cutParts budget word).uncut fits]
    exact List.mem_singleton_self word
  · intro line member
    exact spaced_of_mem_wrapParagraph member

/-- Wrapping divides a text into groups of lines, one for each paragraph, which hold the paragraphs.
Without a budget the lines are the paragraphs, so line feeds join them to the text. -/
theorem holds_wrap (text : List Char) (budget : Int) :
    (1 ≤ budget → ∃ groups, wrap text budget = groups.flatten ∧
      List.Forall₂ (Holds budget) (Text.paragraphs text) groups) ∧
    (budget ≤ 0 → List.intercalate ['\n'] (wrap text budget) = text) := by
  constructor
  · intro positive
    obtain ⟨size, rfl⟩ := Int.eq_ofNat_of_zero_le (zero_le_one.trans positive)
    refine ⟨(Text.paragraphs text).map (wrapParagraph size), ?_, ?_⟩
    · rw [wrap, if_neg (by omega), Int.toNat_natCast, List.flatMap_def]
    · apply List.forall₂_map_right_iff.mpr
      apply List.forall₂_same.mpr
      intro paragraph _
      exact holds_wrapParagraph size paragraph
  · intro unlimited
    rw [wrap, if_pos unlimited]
    exact Text.intercalate_paragraphs text

example : wrap "hi  abcdefghij\n \t\nk".toList 4 =
    ["hi", "abcd", "efgh", "ij", "", "k"].map String.toList := by decide +kernel

theorem holds_longWord :
    (∃ groups, wrap "hi  abcdefghij\n \t\nk".toList 4 = groups.flatten ∧
      List.Forall₂ (Holds 4) (Text.paragraphs "hi  abcdefghij\n \t\nk".toList) groups) ∧
    List.intercalate ['\n'] (wrap "hi  abcdefghij\n \t\nk".toList 0) =
      "hi  abcdefghij\n \t\nk".toList := by
  constructor
  · exact (holds_wrap "hi  abcdefghij\n \t\nk".toList 4).1 (by decide)
  · exact (holds_wrap "hi  abcdefghij\n \t\nk".toList 0).2 le_rfl

end Montage.Caption
