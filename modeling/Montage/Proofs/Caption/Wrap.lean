import Montage.Caption.Wrap
import Montage.Proofs.Text.Blank

/-!
# Wrapped text

Wrapping loses no character of a word and adds nothing but spaces and line breaks. A text that
begins and ends with words still does so when it is wrapped.
-/

namespace Montage.Caption

open Montage.Text (Tight)

variable {budget : Nat} {word : List Char} {given : List (List Char)} {text : List Char}

/-- The pieces of a word and what remains of it are the word. -/
theorem flatten_cutWord (budget : Nat) (word : List Char) :
    (cutWord budget word).1.flatten ++ (cutWord budget word).2 = word := by
  fun_induction cutWord budget word with
  | case1 word more full remainder cut ih =>
      rw [cut] at ih
      simp only [List.flatten_cons, List.append_assoc, ih, List.take_append_drop]
  | case2 word whole => rfl

/-- No piece of a word is empty, and something remains of every word. -/
theorem cutWord_ne_nil (budget : Nat) (nonempty : word ≠ []) :
    (∀ piece ∈ (cutWord budget word).1, piece ≠ []) ∧ (cutWord budget word).2 ≠ [] := by
  fun_induction cutWord budget word with
  | case1 word more full remainder cut ih =>
      obtain ⟨positive, longer⟩ := more
      obtain ⟨pieces, rest⟩ := ih longer
      rw [cut] at pieces rest
      refine ⟨List.forall_mem_cons.mpr ⟨?_, pieces⟩, rest⟩
      simp [nonempty, positive.ne']
  | case2 word whole => exact ⟨by simp, nonempty⟩

/-- A word within the budget is not cut. -/
theorem cutWord_of_fits (fits : word.length ≤ budget) : cutWord budget word = ([], word) := by
  have whole : word.drop budget = [] := List.drop_eq_nil_iff.mpr fits
  rw [cutWord, if_neg fun more => more.2 whole]

/-- The parts of a word that wrapping puts on lines: its pieces and what remains of it. -/
def cutParts (budget : Nat) (word : List Char) : List (List Char) :=
  (cutWord budget word).1 ++ [(cutWord budget word).2]

theorem cutParts_of_fits (fits : word.length ≤ budget) : cutParts budget word = [word] := by
  rw [cutParts, cutWord_of_fits fits, List.nil_append]

theorem flatten_cutParts (budget : Nat) (word : List Char) :
    (cutParts budget word).flatten = word := by
  rw [cutParts, List.flatten_append, List.flatten_singleton, flatten_cutWord]

theorem flatten_flatMap_cutParts (budget : Nat) (given : List (List Char)) :
    (given.flatMap (cutParts budget)).flatten = given.flatten := by
  induction given with
  | nil => rfl
  | cons word rest ih =>
      rw [List.flatMap_cons, List.flatten_append, ih, flatten_cutParts, List.flatten_cons]

/-- The words of a line that may still grow. -/
def OpenLine.words (line : OpenLine) : List (List Char) :=
  line.reversed.reverse

namespace OpenLine

variable {line : OpenLine}

@[simp] theorem words_ofWord (word : List Char) : (ofWord word).words = [word] := rfl

@[simp] theorem words_push (line : OpenLine) (word : List Char) :
    (line.push word).words = line.words ++ [word] := by
  simp only [push]
  split
  next empty => simp [words, empty, ofWord]
  next => simp [words]

@[simp] theorem flatten_close (line : OpenLine) : line.close.flatten = line.words := by
  simp only [close]
  split
  next empty => simp [words, empty]
  next => simp [words]

/-- A finished line has words, and they are those of the line. -/
theorem of_mem_close {kept : List (List Char)} (member : kept ∈ line.close) :
    kept ≠ [] ∧ ∀ word ∈ kept, word ∈ line.words := by
  refine ⟨?_, fun word inside => ?_⟩
  · simp only [close] at member
    split at member
    next => contradiction
    next words some =>
      rw [List.mem_singleton.mp member]
      simpa using some
  · rw [← flatten_close]
    exact List.mem_flatten_of_mem member inside

end OpenLine

/-- Lines hold the parts of the words in their order. -/
theorem flatten_fillLines (budget : Nat) (line : OpenLine) (given : List (List Char)) :
    (fillLines budget line given).flatten = line.words ++ given.flatMap (cutParts budget) := by
  induction given generalizing line with
  | nil => simp [fillLines]
  | cons word rest ih =>
      rw [fillLines, List.flatMap_cons]
      split
      next fits =>
        rw [ih, OpenLine.words_push, cutParts_of_fits (by omega), List.append_assoc]
      next long =>
        have single (pieces : List (List Char)) : (pieces.map ([·])).flatten = pieces := by
          rw [← List.flatMap_def, List.flatMap_singleton']
        simp only [List.flatten_append, ih, OpenLine.flatten_close, OpenLine.words_ofWord, single,
          cutParts, List.append_assoc]

/-- So they hold the characters of the words in their order. -/
theorem flatten_flatten_fillLines (budget : Nat) (line : OpenLine) (given : List (List Char)) :
    (fillLines budget line given).flatten.flatten = (line.words ++ given).flatten := by
  rw [flatten_fillLines, List.flatten_append, flatten_flatMap_cutParts, List.flatten_append]

/-- What open lines and pieces have while lines are filled, all finished lines have. -/
theorem forall_mem_fillLines (Open : OpenLine → Prop) {Kept : List (List Char) → Prop}
    {line : OpenLine} (close : ∀ line, Open line → ∀ kept ∈ line.close, Kept kept)
    (push : ∀ line, Open line → ∀ word ∈ given, line.length + word.length ≤ budget →
      Open (line.push word))
    (cut : ∀ word ∈ given, (∀ piece ∈ (cutWord budget word).1, Kept [piece]) ∧
      Open (.ofWord (cutWord budget word).2))
    (started : Open line) : ∀ kept ∈ fillLines budget line given, Kept kept := by
  induction given generalizing line with
  | nil => exact close line started
  | cons word rest ih =>
      obtain ⟨⟨pieces, remainder⟩, cut⟩ := List.forall_mem_cons.mp cut
      have later (line : OpenLine) (started : Open line) :
          ∀ kept ∈ fillLines budget line rest, Kept kept := by
        refine ih ?_ cut started
        intro line begun other member
        exact push line begun other (List.mem_cons_of_mem word member)
      intro kept member
      rw [fillLines] at member
      split at member
      next fits => exact later _ (push line started word List.mem_cons_self fits) kept member
      next long =>
        simp only [List.mem_append, List.mem_map] at member
        rcases member with (closed | ⟨piece, inside, rfl⟩) | member
        · exact close line started kept closed
        · exact pieces piece inside
        · exact later _ remainder kept member

/-- No line is without words, and no word is empty. -/
theorem ne_nil_of_mem_fillLines {line : OpenLine} {kept : List (List Char)}
    (begun : ∀ word ∈ line.words, word ≠ []) (more : ∀ word ∈ given, word ≠ [])
    (member : kept ∈ fillLines budget line given) : kept ≠ [] ∧ ∀ word ∈ kept, word ≠ [] := by
  suffices all : ∀ kept ∈ fillLines budget line given, kept ≠ [] ∧ ∀ word ∈ kept, word ≠ [] from
    all kept member
  refine forall_mem_fillLines (fun line => ∀ word ∈ line.words, word ≠ []) ?_ ?_ ?_ begun
  · intro line begun kept closed
    obtain ⟨some, words⟩ := OpenLine.of_mem_close closed
    exact ⟨some, fun word inside => begun word (words word inside)⟩
  · intro line begun word inside fits
    simpa [or_imp, forall_and] using ⟨begun, more word inside⟩
  · intro word inside
    obtain ⟨pieces, remainder⟩ := cutWord_ne_nil budget (more word inside)
    constructor
    · intro piece cut
      exact ⟨List.cons_ne_nil _ _, List.forall_mem_singleton.mpr (pieces piece cut)⟩
    · simpa using remainder

/-! ## Paragraphs -/

/-- A paragraph without words has one empty line. -/
theorem wrapParagraph_of_blank (blank : Text.words text = []) :
    wrapParagraph budget text = [[]] := by
  rw [wrapParagraph, blank]
  rfl

/-- The lines of a paragraph with words. -/
theorem wrapParagraph_of_words (budget : Nat) (spoken : Text.words text ≠ []) :
    fillLines budget {} (Text.words text) ≠ [] ∧
      wrapParagraph budget text = (fillLines budget {} (Text.words text)).map joinWords := by
  have filled : fillLines budget {} (Text.words text) ≠ [] := by
    intro none
    have whole := flatten_flatten_fillLines budget {} (Text.words text)
    rw [none] at whole
    obtain ⟨word, rest, listed⟩ := List.exists_cons_of_ne_nil spoken
    have nonempty := (Text.isWord_of_mem_words (listed ▸ List.mem_cons_self)).nonempty
    rw [listed] at whole
    exact nonempty (List.append_eq_nil_iff.mp whole.symm).1
  refine ⟨filled, ?_⟩
  rw [wrapParagraph]
  split
  next none => exact absurd none filled
  next => rfl

/-- The words of the lines of a paragraph are solid. -/
theorem solid_of_mem_fillLines {kept : List (List Char)}
    (member : kept ∈ fillLines budget {} (Text.words text)) :
    kept ≠ [] ∧ ∀ word ∈ kept, word ≠ [] ∧ ∀ character ∈ word,
      character ∈ text ∧ Text.isBlank character = false := by
  obtain ⟨some, words⟩ := ne_nil_of_mem_fillLines (by simp [OpenLine.words])
    (fun word listed => (Text.isWord_of_mem_words listed).nonempty) member
  refine ⟨some, fun word inside => ⟨words word inside, fun character written => ?_⟩⟩
  have listed := List.mem_flatten_of_mem (List.mem_flatten_of_mem member inside) written
  rw [flatten_flatten_fillLines, OpenLine.words, List.reverse_nil, List.nil_append,
    Text.flatten_words] at listed
  simpa using List.mem_filter.mp listed

/-- A line of a paragraph joins words, and at least one. -/
theorem isWord_of_mem_fillLines {kept : List (List Char)}
    (member : kept ∈ fillLines budget {} (Text.words text)) :
    kept ≠ [] ∧ ∀ word ∈ kept, Text.IsWord word := by
  obtain ⟨some, solid⟩ := solid_of_mem_fillLines member
  refine ⟨some, ?_⟩
  intro word inside
  obtain ⟨nonempty, letters⟩ := solid word inside
  exact ⟨nonempty, fun character written => (letters character written).2⟩

/-- Every paragraph has lines. -/
theorem wrapParagraph_ne_nil (budget : Nat) (paragraph : List Char) :
    wrapParagraph budget paragraph ≠ [] := by
  by_cases spoken : Text.words paragraph = []
  · rw [wrapParagraph_of_blank spoken]
    exact List.cons_ne_nil _ _
  · obtain ⟨some, equal⟩ := wrapParagraph_of_words budget spoken
    rw [equal]
    simpa using some

/-- A line of a paragraph is empty or joins words. -/
theorem eq_of_mem_wrapParagraph {line : List Char} (member : line ∈ wrapParagraph budget text) :
    line = [] ∨ ∃ kept ∈ fillLines budget {} (Text.words text), line = joinWords kept := by
  by_cases spoken : Text.words text = []
  · rw [wrapParagraph_of_blank spoken] at member
    exact .inl (List.mem_singleton.mp member)
  · rw [(wrapParagraph_of_words budget spoken).2] at member
    obtain ⟨kept, listed, equal⟩ := List.mem_map.mp member
    exact .inr ⟨kept, listed, equal.symm⟩

/-- The lines of a paragraph with words begin and end with words. -/
theorem tight_of_mem_wrapParagraph {line : List Char} (spoken : Text.words text ≠ [])
    (member : line ∈ wrapParagraph budget text) : Tight line := by
  rw [(wrapParagraph_of_words budget spoken).2] at member
  obtain ⟨kept, listed, rfl⟩ := List.mem_map.mp member
  obtain ⟨some, solid⟩ := isWord_of_mem_fillLines listed
  exact Text.tight_joined [' '] some solid

/-- Lines hold characters of their paragraph and spaces. -/
theorem mem_of_mem_wrapParagraph {line : List Char} {character : Char}
    (member : line ∈ wrapParagraph budget text) (written : character ∈ line) :
    character ∈ text ∨ character = ' ' := by
  rcases eq_of_mem_wrapParagraph member with rfl | ⟨kept, listed, rfl⟩
  · contradiction
  · rcases Text.mem_intercalate written with ⟨word, inside, written⟩ | gap
    · exact .inl (((solid_of_mem_fillLines listed).2 word inside).2 character written).1
    · exact .inr (List.mem_singleton.mp gap)

/-! ## Texts -/

/-- A wrapped text begins and ends with words if the text does. -/
theorem tight_wrap (tight : Tight text) (budget : Int) :
    Tight (List.intercalate ['\n'] (wrap text budget)) := by
  simp only [wrap]
  split
  next => rwa [Text.intercalate_paragraphs]
  next =>
    generalize budget.toNat = budget
    obtain ⟨first, head, spoken⟩ := Text.words_head_paragraphs tight
    obtain ⟨last, final, spoken'⟩ := Text.words_getLast_paragraphs tight
    obtain ⟨rest, begins⟩ := List.head?_eq_some_iff.mp head
    obtain ⟨earlier, ends⟩ := List.getLast?_eq_some_iff.mp final
    have begun := wrapParagraph_ne_nil budget first
    have ended := wrapParagraph_ne_nil budget last
    apply Text.tight_intercalate
    · rw [begins, List.flatMap_cons, List.head?_append_of_ne_nil _ begun]
      exact ⟨_, List.head_mem_head? begun, tight_of_mem_wrapParagraph spoken (List.head_mem begun)⟩
    · rw [ends, List.flatMap_append, List.flatMap_singleton, List.getLast?_append_of_ne_nil _ ended]
      exact ⟨_, List.getLast_mem_getLast? ended,
        tight_of_mem_wrapParagraph spoken' (List.getLast_mem ended)⟩

/-- Lines hold characters of the text and spaces. -/
theorem mem_of_mem_wrap {line : List Char} {character : Char} {budget : Int}
    (member : line ∈ wrap text budget) (written : character ∈ line) :
    character ∈ text ∨ character = ' ' := by
  simp only [wrap] at member
  split at member
  next => exact .inl (Text.mem_of_mem_pieces member written)
  next =>
    obtain ⟨paragraph, listed, member⟩ := List.mem_flatMap.mp member
    exact (mem_of_mem_wrapParagraph member written).imp_left (Text.mem_of_mem_pieces listed)

end Montage.Caption
