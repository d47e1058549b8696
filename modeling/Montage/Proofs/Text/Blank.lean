import Mathlib
import Montage.Text.Blank

/-!
# Pieces of a text

Splitting a text loses nothing but the separators, and stripping it leaves it between characters
that stay. Words that a space joins are read back from the line they make, which has no blank at
its ends and no two of them side by side.
-/

namespace Montage.Text

variable {separator : Char → Bool} {text : List Char}

/-! ## Pieces -/

theorem pieces_eq_splitOnP (separator : Char → Bool) (text : List Char) :
    pieces separator text = text.splitOnP separator := by
  induction text with
  | nil => rfl
  | cons character rest ih =>
      rw [pieces, List.splitOnP_cons_eq_if_modifyHead, ih]
      split
      · rfl
      · split
        next none => exact absurd none (List.splitOnP_ne_nil separator rest)
        next some => rw [some, List.modifyHead_cons]

/-- The pieces together are the text without its separators. -/
theorem flatten_pieces (separator : Char → Bool) (text : List Char) :
    (pieces separator text).flatten = text.filter fun character => !separator character := by
  induction text with
  | nil => rfl
  | cons character rest ih =>
      rw [pieces]
      split
      next separates => simp [separates, ih]
      next stays =>
        rw [List.filter_cons_of_pos (by simpa using stays), ← ih]
        split <;> simp_all

/-- A piece holds characters of the text. -/
theorem mem_of_mem_pieces {piece : List Char} {character : Char}
    (member : piece ∈ pieces separator text) (inside : character ∈ piece) : character ∈ text := by
  have listed := List.mem_flatten_of_mem member inside
  rw [flatten_pieces] at listed
  exact (List.mem_filter.mp listed).1

/-- Joined by line feeds, the paragraphs are the text. -/
theorem intercalate_paragraphs (text : List Char) :
    List.intercalate ['\n'] (paragraphs text) = text := by
  rw [paragraphs, pieces_eq_splitOnP]
  exact List.intercalate_splitOn '\n'

/-- Lines without line feeds are the paragraphs of the text that line feeds join them to. -/
theorem paragraphs_intercalate {lines : List (List Char)} (nonempty : lines ≠ [])
    (unbroken : ∀ line ∈ lines, '\n' ∉ line) :
    paragraphs (List.intercalate ['\n'] lines) = lines := by
  rw [paragraphs, pieces_eq_splitOnP]
  exact List.splitOn_intercalate '\n' unbroken nonempty

/-- No piece holds a separator. -/
theorem not_separates_of_mem_pieces {piece : List Char} {character : Char}
    (member : piece ∈ pieces separator text) (inside : character ∈ piece) :
    separator character = false := by
  have listed := List.mem_flatten_of_mem member inside
  rw [flatten_pieces] at listed
  simpa using (List.mem_filter.mp listed).2

/-- A paragraph is a text of one paragraph. -/
theorem paragraphs_of_mem_paragraphs {paragraph : List Char}
    (member : paragraph ∈ paragraphs text) : paragraphs paragraph = [paragraph] := by
  rw [paragraphs, pieces_eq_splitOnP]
  apply List.splitOnP_eq_singleton
  intro character inside
  exact @not_separates_of_mem_pieces (· == '\n') text paragraph character member inside

/-- The words together are the text without its blanks. -/
theorem flatten_words (text : List Char) :
    (words text).flatten = text.filter fun character => !isBlank character := by
  rw [← flatten_pieces, words]
  induction pieces isBlank text with
  | nil => rfl
  | cons piece rest ih => cases piece <;> simp [ih]

theorem words_ne_nil {character : Char} (member : character ∈ text)
    (solid : isBlank character = false) : words text ≠ [] := by
  intro none
  have listed : character ∈ (words text).flatten := by
    rw [flatten_words]
    exact List.mem_filter.mpr ⟨member, by rw [solid]; rfl⟩
  rw [none] at listed
  contradiction

/-- A word is not empty and holds no blank. -/
structure IsWord (word : List Char) : Prop where
  nonempty : word ≠ []
  solid : ∀ character ∈ word, isBlank character = false

theorem isWord_of_mem_words {word : List Char} (member : word ∈ words text) : IsWord word := by
  have nonempty : word ≠ [] := by
    have kept := (List.mem_filter.mp member).2
    simpa using kept
  refine ⟨nonempty, fun character inside => ?_⟩
  exact not_separates_of_mem_pieces (List.mem_filter.mp member).1 inside

/-- A text of blanks has no words, and no other text is without words. -/
theorem words_eq_nil_iff : words text = [] ↔ ∀ character ∈ text, isBlank character = true := by
  constructor
  · intro none character member
    by_contra solid
    exact words_ne_nil member (Bool.eq_false_iff.mpr solid) none
  · intro blank
    apply List.eq_nil_iff_forall_not_mem.mpr
    intro word member
    obtain ⟨nonempty, solid⟩ := isWord_of_mem_words member
    have written := List.mem_flatten_of_mem member (List.head_mem nonempty)
    rw [flatten_words] at written
    have missing := solid _ (List.head_mem nonempty)
    rw [blank _ (List.mem_filter.mp written).1] at missing
    contradiction

/-- A blank separates the words before it from those after it. -/
theorem words_append_blank {blank : Char} (separates : isBlank blank = true)
    (before after : List Char) :
    words (before ++ blank :: after) = words before ++ words after := by
  simp only [words, pieces_eq_splitOnP, List.splitOnP_append_cons before after separates,
    List.filter_append]

/-- A word is the only one of its own text. -/
theorem words_of_isWord (word : IsWord text) : words text = [text] := by
  rw [words, pieces_eq_splitOnP, List.splitOnP_eq_singleton word.solid]
  simpa using word.nonempty

/-- The words that a space joins are read back from the line. -/
theorem words_joined {joined : List (List Char)} (solid : ∀ word ∈ joined, IsWord word) :
    words (List.intercalate [' '] joined) = joined := by
  induction joined with
  | nil => rfl
  | cons first rest ih =>
      obtain ⟨word, solid⟩ := List.forall_mem_cons.mp solid
      cases rest with
      | nil => rw [List.intercalate_singleton, words_of_isWord word]
      | cons next more =>
          rw [List.intercalate_cons_cons, List.append_assoc, List.singleton_append,
            words_append_blank (by decide), words_of_isWord word, ih solid]
          rfl

/-! ## Ends of a text -/

/-- A text that begins and ends with characters that are no blanks. -/
structure Tight (text : List Char) : Prop where
  first : ∃ character ∈ text.head?, isBlank character = false
  last : ∃ character ∈ text.getLast?, isBlank character = false

theorem Tight.ne_nil (tight : Tight text) : text ≠ [] := by
  rintro rfl
  obtain ⟨character, member, -⟩ := tight.first
  contradiction

theorem strip_start (text : List Char) : strip text <+: text.dropWhile isBlank :=
  List.rdropWhile_prefix isBlank _

theorem strip_sublist (text : List Char) : (strip text).Sublist text :=
  (strip_start text).sublist.trans (List.dropWhile_sublist _)

/-- Something is left of a text that is not blank. -/
theorem strip_ne_nil {character : Char} (member : character ∈ text)
    (solid : isBlank character = false) : strip text ≠ [] := by
  intro empty
  have blank : isBlank character = true := by
    rw [← List.takeWhile_append_dropWhile (p := isBlank) (l := text), List.mem_append] at member
    rcases member with before | behind
    · exact List.mem_takeWhile_imp before
    · exact List.rdropWhile_eq_nil_iff.mp empty character behind
  rw [solid] at blank
  contradiction

/-- A stripped text is tight, unless nothing is left of it. -/
theorem tight_strip (nonempty : strip text ≠ []) : Tight (strip text) := by
  constructor
  · obtain ⟨first, rest, equal⟩ := List.exists_cons_of_ne_nil nonempty
    obtain ⟨more, extended⟩ := strip_start text
    have head := List.head?_dropWhile_not isBlank text
    rw [← extended, equal] at head
    refine ⟨first, by rw [equal]; rfl, ?_⟩
    simpa using head
  · have last := List.rdropWhile_last_not isBlank (text.dropWhile isBlank) nonempty
    exact ⟨_, List.getLast?_eq_getLast_of_ne_nil nonempty, Bool.eq_false_iff.mpr last⟩

/-- Nothing is stripped from a tight text. -/
theorem strip_of_tight (tight : Tight text) : strip text = text := by
  obtain ⟨first, head, solid⟩ := tight.first
  obtain ⟨final, last, solid'⟩ := tight.last
  have kept : text.dropWhile isBlank = text := by
    obtain ⟨rest, rfl⟩ := List.head?_eq_some_iff.mp head
    exact List.dropWhile_cons_of_neg (by simp [solid])
  have keptEnd : text.rdropWhile isBlank = text := by
    refine List.rdropWhile_eq_self_iff.mpr fun nonempty => ?_
    rw [List.getLast_of_mem_getLast? last, solid']
    exact Bool.false_ne_true
  rw [strip, stripBy, kept]
  exact keptEnd

/-- What is written in joined lines is written in a line or in the gap. -/
theorem mem_intercalate {gap : List Char} {lines : List (List Char)} {character : Char}
    (written : character ∈ List.intercalate gap lines) :
    (∃ line ∈ lines, character ∈ line) ∨ character ∈ gap := by
  induction lines with
  | nil => contradiction
  | cons first rest ih =>
      cases rest with
      | nil => exact .inl ⟨first, List.mem_cons_self, by simpa using written⟩
      | cons next more =>
          rw [List.intercalate_cons_cons, List.append_assoc, List.mem_append,
            List.mem_append] at written
          rcases written with here | between | later
          · exact .inl ⟨first, List.mem_cons_self, here⟩
          · exact .inr between
          · exact (ih later).imp_left fun ⟨line, member, inside⟩ =>
              ⟨line, List.mem_cons_of_mem _ member, inside⟩

/-- What is written in a line is written in joined lines. -/
theorem mem_intercalate_of_mem {line : List Char} {lines : List (List Char)} {character : Char}
    (gap : List Char) (member : line ∈ lines) (inside : character ∈ line) :
    character ∈ List.intercalate gap lines := by
  induction lines with
  | nil => contradiction
  | cons first rest ih =>
      cases rest with
      | nil => rwa [List.intercalate_singleton, ← List.mem_singleton.mp member]
      | cons next more =>
          rw [List.intercalate_cons_cons, List.append_assoc]
          rcases List.mem_cons.mp member with rfl | later
          · exact List.mem_append_left _ inside
          · exact List.mem_append_right _ (List.mem_append_right _ (ih later))

theorem head?_intercalate {gap line : List Char} (lines : List (List Char))
    (nonempty : line ≠ []) : (List.intercalate gap (line :: lines)).head? = line.head? := by
  cases lines with
  | nil => rw [List.intercalate_singleton]
  | cons next rest =>
      rw [List.intercalate_cons_cons, List.append_assoc, List.head?_append_of_ne_nil _ nonempty]

theorem getLast?_intercalate {gap line : List Char} {lines : List (List Char)}
    (last : lines.getLast? = some line) (nonempty : line ≠ []) :
    (List.intercalate gap lines).getLast? = line.getLast? := by
  induction lines with
  | nil => contradiction
  | cons first rest ih =>
      cases rest with
      | nil =>
          have same : first = line := Option.some.inj last
          rw [List.intercalate_singleton, same]
      | cons next more =>
          have tail := ih (by rwa [List.getLast?_cons_cons] at last)
          have tailNonempty : List.intercalate gap (next :: more) ≠ [] := by
            intro empty
            rw [empty] at tail
            exact nonempty (List.getLast?_eq_none_iff.mp tail.symm)
          rw [List.intercalate_cons_cons, List.getLast?_append_of_ne_nil _ tailNonempty, tail]

/-- Lines make a tight text if the first and the last of them are tight. -/
theorem tight_intercalate {lines : List (List Char)} (gap : List Char)
    (first : ∃ line ∈ lines.head?, Tight line) (last : ∃ line ∈ lines.getLast?, Tight line) :
    Tight (List.intercalate gap lines) := by
  obtain ⟨start, head, tight⟩ := first
  obtain ⟨final, tail, tight'⟩ := last
  obtain ⟨rest, rfl⟩ := List.head?_eq_some_iff.mp head
  constructor
  · rw [head?_intercalate rest tight.ne_nil]
    exact tight.first
  · rw [getLast?_intercalate tail tight'.ne_nil]
    exact tight'.last

/-- Words that a gap joins make a tight text. -/
theorem tight_joined {joined : List (List Char)} (gap : List Char) (nonempty : joined ≠ [])
    (solid : ∀ word ∈ joined, IsWord word) :
    Tight (List.intercalate gap joined) := by
  have tight (word : List Char) (member : word ∈ joined) : Tight word := by
    obtain ⟨some, none⟩ := solid word member
    exact ⟨⟨_, List.head_mem_head? some, none _ (List.head_mem some)⟩,
      ⟨_, List.getLast_mem_getLast? some, none _ (List.getLast_mem some)⟩⟩
  exact tight_intercalate gap
    ⟨_, List.head_mem_head? nonempty, tight _ (List.head_mem nonempty)⟩
    ⟨_, List.getLast_mem_getLast? nonempty, tight _ (List.getLast_mem nonempty)⟩

/-- Of two characters side by side one is no blank. -/
def BlanksApart (text : List Char) : Prop :=
  text.IsChain fun left right => isBlank left = false ∨ isBlank right = false

/-- A line with no blank at either end and no two blanks side by side. -/
structure Spaced (line : List Char) : Prop where
  first : ∀ character ∈ line.head?, isBlank character = false
  last : ∀ character ∈ line.getLast?, isBlank character = false
  apart : BlanksApart line

theorem spaced_nil : Spaced [] :=
  ⟨fun _ member => (Option.not_mem_none _ member).elim,
    fun _ member => (Option.not_mem_none _ member).elim, .nil⟩

theorem Tight.spaced (tight : Tight text) (apart : BlanksApart text) : Spaced text := by
  obtain ⟨first, head, solid⟩ := tight.first
  obtain ⟨final, last, solid'⟩ := tight.last
  constructor
  · intro character member
    rwa [Option.mem_unique member head]
  · intro character member
    rwa [Option.mem_unique member last]
  · exact apart

theorem IsWord.blanksApart (word : IsWord text) : BlanksApart text := by
  apply List.Pairwise.isChain
  apply List.pairwise_of_forall_mem_list
  intro left inside right _
  exact .inl (word.solid left inside)

/-- The blanks of a line are apart if a space joins its words. -/
theorem blanksApart_joined {joined : List (List Char)} (solid : ∀ word ∈ joined, IsWord word) :
    BlanksApart (List.intercalate [' '] joined) := by
  induction joined with
  | nil => exact .nil
  | cons first rest ih =>
      obtain ⟨word, solid⟩ := List.forall_mem_cons.mp solid
      cases rest with
      | nil =>
          rw [List.intercalate_singleton]
          exact word.blanksApart
      | cons next more =>
          have word' := solid next List.mem_cons_self
          rw [List.intercalate_cons_cons, List.append_assoc, List.singleton_append]
          apply List.isChain_append.mpr
          refine ⟨word.blanksApart, List.isChain_cons.mpr ⟨?_, ih solid⟩, ?_⟩
          · intro character member
            rw [head?_intercalate more word'.nonempty] at member
            exact .inr (word'.solid character (List.mem_of_mem_head? member))
          · intro character member blank _
            exact .inl (word.solid character (List.mem_of_getLast? member))

/-- So they make a spaced line. -/
theorem spaced_joined {joined : List (List Char)} (nonempty : joined ≠ [])
    (solid : ∀ word ∈ joined, IsWord word) : Spaced (List.intercalate [' '] joined) :=
  (tight_joined [' '] nonempty solid).spaced (blanksApart_joined solid)

/-- A text that begins with a word begins with a paragraph of words. -/
theorem words_head_paragraphs (tight : Tight text) :
    ∃ paragraph ∈ (paragraphs text).head?, words paragraph ≠ [] := by
  obtain ⟨character, head, solid⟩ := tight.first
  rw [← intercalate_paragraphs text] at head
  match listed : paragraphs text with
  | [] => simp [listed] at head
  | [] :: [] => simp [listed] at head
  | [] :: next :: rest =>
      rw [listed, List.intercalate_cons_cons] at head
      cases head
      contradiction
  | (first :: others) :: rest =>
      rw [listed, head?_intercalate rest (List.cons_ne_nil first others)] at head
      exact ⟨_, rfl, words_ne_nil (List.mem_of_head? head) solid⟩

/-- The last character of joined lines is of the last line, unless it is a gap. -/
theorem mem_getLast?_of_intercalate {lines : List (List Char)} {character gap : Char}
    (last : (List.intercalate [gap] lines).getLast? = some character) (other : character ≠ gap) :
    ∃ line ∈ lines.getLast?, character ∈ line := by
  induction lines with
  | nil => contradiction
  | cons first rest ih =>
      cases rest with
      | nil =>
          rw [List.intercalate_singleton] at last
          exact ⟨first, rfl, List.mem_of_getLast? last⟩
      | cons next more =>
          rw [List.intercalate_cons_cons, List.append_assoc, List.singleton_append,
            List.getLast?_append_of_ne_nil _ (List.cons_ne_nil _ _)] at last
          rw [List.getLast?_cons_cons]
          match tail : List.intercalate [gap] (next :: more) with
          | [] =>
              rw [tail] at last
              exact absurd (Option.some.inj last).symm other
          | head :: others =>
              rw [tail, List.getLast?_cons_cons, ← tail] at last
              exact ih last

/-- A text that ends with a word ends with a paragraph of words. -/
theorem words_getLast_paragraphs (tight : Tight text) :
    ∃ paragraph ∈ (paragraphs text).getLast?, words paragraph ≠ [] := by
  obtain ⟨character, last, solid⟩ := tight.last
  rw [← intercalate_paragraphs text] at last
  have other : character ≠ '\n' := by
    rintro rfl
    contradiction
  obtain ⟨paragraph, final, member⟩ := mem_getLast?_of_intercalate last other
  exact ⟨paragraph, final, words_ne_nil member solid⟩

end Montage.Text
