import Montage.Proofs.Caption.Wrap

/-!
# Greedy lines

A line that is filled greedily exceeds the budget by at most the one space that was not counted.
Where no word has to be cut, no division of the words into such lines has fewer of them: greedy
filling stays ahead of every division, word by word. With a greater budget it stays ahead of itself
even where words are cut and the two wraps cut them at different places.

How far a wrap has come is the number of its finished lines and the length of the open one. The
order that compares first the lines and then the lengths is kept by every word.
-/

namespace Montage.Caption

variable {budget budget' : Nat} {word : List Char} {given more : List (List Char)}
variable {line : OpenLine}

/-! ## Lengths -/

/-- How much longer words make a line that has begun. -/
def growth (more : List (List Char)) : Nat :=
  (more.map fun word => 1 + word.length).sum

@[simp] theorem growth_nil : growth [] = 0 := rfl

@[simp] theorem growth_cons (word : List Char) (more : List (List Char)) :
    growth (word :: more) = 1 + word.length + growth more :=
  List.sum_cons

@[simp] theorem growth_append (given more : List (List Char)) :
    growth (given ++ more) = growth given + growth more := by
  rw [growth, List.map_append, List.sum_append]
  rfl

theorem length_joinWords (word : List Char) (more : List (List Char)) :
    (joinWords (word :: more)).length = word.length + growth more := by
  induction more generalizing word with
  | nil =>
      rw [joinWords, List.intercalate_singleton]
      rfl
  | cons next rest ih =>
      have tail := ih next
      rw [joinWords] at tail
      rw [joinWords, List.intercalate_cons_cons, List.length_append, List.length_append, tail,
        List.length_singleton, growth_cons]
      omega

theorem length_joinWords_concat (nonempty : given ≠ []) (word : List Char) :
    (joinWords (given ++ [word])).length = (joinWords given).length + 1 + word.length := by
  obtain ⟨first, rest, rfl⟩ := List.exists_cons_of_ne_nil nonempty
  rw [List.cons_append, length_joinWords, length_joinWords, growth_append, growth_cons,
    growth_nil]
  omega

/-- The pieces of a word have the length of the budget, and what remains of it has at most that
length. -/
theorem length_of_cutWord (positive : 0 < budget) (word : List Char) :
    (∀ piece ∈ (cutWord budget word).1, piece.length = budget) ∧
      (cutWord budget word).2.length ≤ budget := by
  fun_induction cutWord budget word with
  | case1 word more full remainder cut ih =>
      rw [cut] at ih
      obtain ⟨pieces, rest⟩ := ih
      refine ⟨List.forall_mem_cons.mpr ⟨?_, pieces⟩, rest⟩
      have longer := List.drop_eq_nil_iff.not.mp more.2
      rw [List.length_take]
      omega
  | case2 word whole =>
      constructor
      · intro piece member
        contradiction
      · have fits : word.drop budget = [] := by
          by_contra longer
          exact whole ⟨positive, longer⟩
        exact List.drop_eq_nil_iff.mp fits

/-- Words that may share a line: one word within the budget, or several that with the spaces
between them exceed it by at most one character. -/
structure Fits (budget : Int) (words : List (List Char)) : Prop where
  nonempty : words ≠ []
  single : ∀ word, words = [word] → word.length ≤ budget
  joined : (joinWords words).length ≤ budget + 1

theorem fits_single (fits : word.length ≤ budget) : Fits budget [word] := by
  constructor
  · exact List.cons_ne_nil _ _
  · intro other equal
    cases equal
    exact_mod_cast fits
  · rw [joinWords, List.intercalate_singleton]
    omega

/-- A line that may still grow knows its length, and its words fit. -/
structure OpenLine.Sound (budget : Nat) (line : OpenLine) : Prop where
  length : line.length = (joinWords line.words).length
  fits : line.words ≠ [] → Fits budget line.words

namespace OpenLine

theorem sound_empty (budget : Nat) : Sound budget {} :=
  ⟨rfl, fun nonempty => absurd rfl nonempty⟩

theorem sound_ofWord (fits : word.length ≤ budget) : Sound budget (ofWord word) := by
  constructor
  · rw [words_ofWord, joinWords, List.intercalate_singleton]
    rfl
  · intro _
    exact fits_single fits

/-- A line with words grows by a space and the word. -/
theorem length_push (started : line.words ≠ []) (word : List Char) :
    (line.push word).length = line.length + 1 + word.length := by
  have words : line.reversed ≠ [] := List.reverse_eq_nil_iff.not.mp started
  rw [push]
  split
  next => contradiction
  next => rfl

theorem close_of_words (started : line.words ≠ []) : line.close = [line.words] := by
  have words : line.reversed ≠ [] := List.reverse_eq_nil_iff.not.mp started
  rw [close]
  split
  next => contradiction
  next => rfl

/-- A word is added only if the line stays sound. -/
theorem Sound.push (sound : Sound budget line) (fits : line.length + word.length ≤ budget) :
    Sound budget (line.push word) := by
  by_cases empty : line.reversed = []
  · have started : line.push word = ofWord word := by
      rw [OpenLine.push, empty]
    rw [started]
    exact sound_ofWord (by omega)
  · have begun : line.words ≠ [] := List.reverse_eq_nil_iff.not.mpr empty
    have longer := length_joinWords_concat begun word
    constructor
    · rw [length_push begun, sound.length, words_push, longer]
    · intro nonempty
      rw [words_push]
      constructor
      · exact List.append_ne_nil_of_right_ne_nil _ (List.cons_ne_nil _ _)
      · intro other alone
        have count := congrArg List.length alone
        rw [List.length_append, List.length_singleton, List.length_singleton] at count
        exact absurd (List.length_eq_zero_iff.mp (by omega)) begun
      · rw [longer, ← sound.length]
        omega

theorem Sound.fits_of_mem_close {kept : List (List Char)} (sound : Sound budget line)
    (member : kept ∈ line.close) : Fits budget kept := by
  by_cases started : line.words = []
  · rw [close, List.reverse_eq_nil_iff.mp started] at member
    contradiction
  · rw [close_of_words started, List.mem_singleton] at member
    rw [member]
    exact sound.fits started

end OpenLine

/-- The words of every line fit. -/
theorem fits_of_mem_fillLines {kept : List (List Char)} (positive : 0 < budget)
    (sound : line.Sound budget) (member : kept ∈ fillLines budget line given) :
    Fits budget kept := by
  refine forall_mem_fillLines (OpenLine.Sound budget) ?_ ?_ ?_ sound kept member
  · intro line sound kept closed
    exact sound.fits_of_mem_close closed
  · intro line sound word _ fits
    exact sound.push fits
  · intro word _
    obtain ⟨pieces, remainder⟩ := length_of_cutWord positive word
    constructor
    · intro piece cut
      exact fits_single (pieces piece cut).le
    · exact OpenLine.sound_ofWord remainder

/-- A line without a space is one word. -/
theorem Fits.length_of_unspaced {budget : Int} {words : List (List Char)} (fits : Fits budget words)
    (unspaced : ' ' ∉ joinWords words) : (joinWords words).length ≤ budget := by
  obtain ⟨word, more, rfl⟩ := List.exists_cons_of_ne_nil fits.nonempty
  cases more with
  | nil =>
      rw [joinWords, List.intercalate_singleton]
      exact fits.single word rfl
  | cons next rest =>
      rw [joinWords, List.intercalate_cons_cons] at unspaced
      simp at unspaced

/-- No line exceeds the budget but by one space. -/
theorem length_of_mem_wrapParagraph {paragraph line : List Char} (positive : 0 < budget)
    (member : line ∈ wrapParagraph budget paragraph) :
    line.length ≤ (budget : Int) + 1 ∧ (' ' ∉ line → line.length ≤ (budget : Int)) := by
  rcases eq_of_mem_wrapParagraph member with rfl | ⟨kept, listed, rfl⟩
  · rw [List.length_nil]
    constructor
    · omega
    · intro _
      omega
  · have fits := fits_of_mem_fillLines positive (OpenLine.sound_empty budget) listed
    exact ⟨fits.joined, fits.length_of_unspaced⟩

/-! ## How far a wrap has come -/

/-- How far a wrap has come: the number of its finished lines and the length of the open one. Fewer
lines come first, and of as many lines those with a shorter open one. -/
abbrev Standing : Type := Nat ×ₗ Nat

/-- The standing after a word that begins a line. A word that is cut finishes lines at once. -/
def Standing.ofWord (budget finished : Nat) (word : List Char) : Standing :=
  toLex (finished + (cutWord budget word).1.length, (cutWord budget word).2.length)

theorem Standing.ofWord_of_fits (fits : word.length ≤ budget) (finished : Nat) :
    Standing.ofWord budget finished word = toLex (finished, word.length) := by
  rw [Standing.ofWord, cutWord_of_fits fits, List.length_nil, Nat.add_zero]

/-- The standing after one more word. -/
def advance (budget : Nat) (standing : Standing) (word : List Char) : Standing :=
  let (finished, length) := ofLex standing
  if length + word.length ≤ budget then toLex (finished, length + 1 + word.length)
  else .ofWord budget (finished + 1) word

theorem advance_of_joins {length : Nat} (joins : length + word.length ≤ budget) (finished : Nat) :
    advance budget (toLex (finished, length)) word = toLex (finished, length + 1 + word.length) :=
  if_pos joins

theorem advance_of_breaks {length : Nat} (breaks : ¬length + word.length ≤ budget)
    (finished : Nat) :
    advance budget (toLex (finished, length)) word = .ofWord budget (finished + 1) word :=
  if_neg breaks

/-- What is filled from a begun line on are the lines that the standing counts. -/
theorem length_fillLines (started : line.words ≠ []) (finished : Nat) :
    finished + (fillLines budget line given).length =
      (ofLex (given.foldl (advance budget) (toLex (finished, line.length)))).1 + 1 := by
  induction given generalizing line finished with
  | nil =>
      rw [fillLines, OpenLine.close_of_words started]
      rfl
  | cons word rest ih =>
      rw [fillLines, List.foldl_cons]
      split
      next fits =>
        have longer : (line.push word).words ≠ [] := by
          rw [OpenLine.words_push]
          exact List.append_ne_nil_of_right_ne_nil _ (List.cons_ne_nil _ _)
        rw [ih longer, OpenLine.length_push started, advance_of_joins fits]
      next long =>
        have single : (OpenLine.ofWord (cutWord budget word).2).words ≠ [] := List.cons_ne_nil _ _
        have counted := ih single (finished + 1 + (cutWord budget word).1.length)
        rw [advance_of_breaks long, Standing.ofWord, List.length_append, List.length_append,
          OpenLine.close_of_words started, List.length_singleton, List.length_map]
        exact Eq.trans (by omega) counted

/-- The pieces of a word and its remainder share out its length. -/
theorem length_shared (budget : Nat) (word : List Char) :
    (cutWord budget word).1.length * budget + (cutWord budget word).2.length = word.length := by
  fun_induction cutWord budget word with
  | case1 word more full remainder cut ih =>
      have longer := List.drop_eq_nil_iff.not.mp more.2
      rw [cut, List.length_drop] at ih
      change (full.length + 1) * budget + remainder.length = word.length
      rw [Nat.succ_mul]
      change full.length * budget + remainder.length = word.length - budget at ih
      omega
  | case2 word whole => rw [List.length_nil, zero_mul, zero_add]

/-- Under a greater budget a word is cut into fewer pieces, or into as many with a shorter
remainder. -/
theorem Standing.ofWord_le_ofWord {finished finished' : Nat} (positive : 0 < budget)
    (budgets : budget ≤ budget') (nonempty : word ≠ []) (atMost : finished' ≤ finished) :
    Standing.ofWord budget' finished' word ≤ .ofWord budget finished word := by
  have shared := length_shared budget word
  have shared' := length_shared budget' word
  have remainder := (length_of_cutWord positive word).2
  have remainder' := List.length_pos_iff.mpr (cutWord_ne_nil budget' nonempty).2
  apply Prod.Lex.toLex_le_toLex.mpr
  generalize (cutWord budget word).1.length = pieces at *
  generalize (cutWord budget' word).1.length = pieces' at *
  rcases Nat.lt_trichotomy pieces' pieces with fewer | rfl | more
  · exact .inl (Nat.add_lt_add_of_le_of_lt atMost fewer)
  · have least : pieces' * budget ≤ pieces' * budget' := Nat.mul_le_mul_left _ budgets
    rcases atMost.lt_or_eq with less | rfl
    · exact .inl (Nat.add_lt_add_right less pieces')
    · exact .inr ⟨rfl, by dsimp only; omega⟩
  · -- One piece more of the greater length would be longer than the word.
    have least : (pieces + 1) * budget ≤ pieces' * budget' := Nat.mul_le_mul more budgets
    rw [Nat.succ_mul] at least
    omega

/-- Every word keeps the order of two wraps, and so does a greater budget of the one ahead. -/
theorem advance_le_advance {standing standing' : Standing} (positive : 0 < budget)
    (budgets : budget ≤ budget') (nonempty : word ≠ []) (ahead : standing' ≤ standing) :
    advance budget' standing' word ≤ advance budget standing word := by
  obtain ⟨⟨finished, length⟩, rfl⟩ := toLex.surjective standing
  obtain ⟨⟨finished', length'⟩, rfl⟩ := toLex.surjective standing'
  have behind : finished' < finished ∨ finished' = finished ∧ length' ≤ length :=
    Prod.Lex.toLex_le_toLex.mp ahead
  by_cases joins' : length' + word.length ≤ budget'
  · rw [advance_of_joins joins']
    by_cases joins : length + word.length ≤ budget
    · rw [advance_of_joins joins]
      apply Prod.Lex.toLex_le_toLex.mpr
      dsimp only
      omega
    · rw [advance_of_breaks joins]
      apply Prod.Lex.toLex_le_toLex.mpr
      dsimp only
      omega
  · rw [advance_of_breaks joins']
    by_cases joins : length + word.length ≤ budget
    · -- Only the wrap with more room breaks, so it was on an earlier line and now catches up.
      rw [advance_of_joins joins, Standing.ofWord_of_fits (by omega)]
      apply Prod.Lex.toLex_le_toLex.mpr
      dsimp only
      omega
    · rw [advance_of_breaks joins]
      exact Standing.ofWord_le_ofWord positive budgets nonempty (by omega)

/-- So a wrap that is ahead stays ahead through all words. -/
theorem foldl_advance_le_foldl_advance {standing standing' : Standing} (positive : 0 < budget)
    (budgets : budget ≤ budget') (nonempty : ∀ word ∈ given, word ≠ [])
    (ahead : standing' ≤ standing) :
    given.foldl (advance budget') standing' ≤ given.foldl (advance budget) standing := by
  induction given generalizing standing standing' with
  | nil => exact ahead
  | cons word rest ih =>
      obtain ⟨first, nonempty⟩ := List.forall_mem_cons.mp nonempty
      exact ih nonempty (advance_le_advance positive budgets first ahead)

/-- A wrap that is ahead has not finished more lines. -/
theorem finished_le_finished {standing standing' : Standing} (ahead : standing' ≤ standing) :
    (ofLex standing').1 ≤ (ofLex standing).1 := by
  rcases Prod.Lex.le_iff.mp ahead with less | ⟨same, -⟩
  · exact less.le
  · exact same.le

/-- The first word always begins a line. -/
theorem fillLines_start (budget : Nat) (word : List Char) (rest : List (List Char)) :
    fillLines budget {} (word :: rest) =
      (cutWord budget word).1.map ([·]) ++
        fillLines budget (.ofWord (cutWord budget word).2) rest := by
  rw [fillLines]
  split
  next fits =>
    rw [cutWord_of_fits (by simpa using fits)]
    rfl
  next long => rfl

/-- The number of lines of a paragraph with words. -/
theorem length_wrapParagraph {paragraph : List Char}
    (listed : Text.words paragraph = word :: given) (budget : Nat) :
    (wrapParagraph budget paragraph).length =
      (ofLex (given.foldl (advance budget) (Standing.ofWord budget 0 word))).1 + 1 := by
  have spoken : Text.words paragraph ≠ [] := by
    rw [listed]
    exact List.cons_ne_nil _ _
  have started : (OpenLine.ofWord (cutWord budget word).2).words ≠ [] := List.cons_ne_nil _ _
  rw [(wrapParagraph_of_words budget spoken).2, listed, fillLines_start, List.length_map,
    List.length_append, List.length_map, length_fillLines started, Standing.ofWord, zero_add]
  rfl

/-! ## Greater budgets -/

/-- The first words are compared where both wraps begin, and from there on word by word. -/
theorem length_wrapParagraph_le (paragraph : List Char) (positive : 0 < budget)
    (budgets : budget ≤ budget') :
    (wrapParagraph budget' paragraph).length ≤ (wrapParagraph budget paragraph).length := by
  match listed : Text.words paragraph with
  | [] => rw [wrapParagraph_of_blank listed, wrapParagraph_of_blank listed]
  | word :: rest =>
      have nonempty : ∀ other ∈ word :: rest, other ≠ [] := by
        intro other member
        exact (Text.isWord_of_mem_words (listed ▸ member)).nonempty
      obtain ⟨first, nonempty⟩ := List.forall_mem_cons.mp nonempty
      rw [length_wrapParagraph listed, length_wrapParagraph listed]
      apply Nat.succ_le_succ
      apply finished_le_finished
      apply foldl_advance_le_foldl_advance positive budgets nonempty
      exact Standing.ofWord_le_ofWord positive budgets first le_rfl

/-- A greater budget never needs more lines, wherever words have to be cut. -/
theorem length_wrap_antitone (text : List Char) {few many : Int} (positive : 1 ≤ few)
    (atMost : few ≤ many) : (wrap text many).length ≤ (wrap text few).length := by
  rw [wrap, wrap, if_neg (by omega), if_neg (by omega), List.length_flatMap, List.length_flatMap]
  apply List.sum_le_sum
  intro paragraph _
  exact length_wrapParagraph_le paragraph (by omega) (by omega)

theorem length_wrap_longWords :
    (wrap "abcdefgh ij\n\nk".toList 5).length ≤ (wrap "abcdefgh ij\n\nk".toList 3).length :=
  length_wrap_antitone "abcdefgh ij\n\nk".toList (by decide) (by decide)

/-! ## The length of a wrapped text -/

/-- There is one piece more than there are separators. -/
theorem growth_pieces (separator : Char → Bool) (text : List Char) :
    growth (Text.pieces separator text) = text.length + 1 := by
  induction text with
  | nil => rfl
  | cons character rest ih =>
      rw [Text.pieces, List.length_cons, ← ih]
      split
      next => rw [growth_cons, List.length_nil, Nat.add_comm]
      next =>
        split
        next none =>
          rw [none] at ih
          contradiction
        next first others some =>
          rw [some, growth_cons, growth_cons, List.length_cons]
          omega

theorem length_le_growth (lines : List (List Char)) : lines.length ≤ growth lines := by
  induction lines with
  | nil => exact le_rfl
  | cons line rest ih =>
      rw [List.length_cons, growth_cons]
      omega

theorem length_lt_growth_of_mem {lines : List (List Char)} {line : List Char}
    (member : line ∈ lines) : line.length < growth lines := by
  have atMost : 1 + line.length ≤ growth lines :=
    List.le_sum_of_mem (List.mem_map_of_mem member)
  omega

/-- There are at most as many words as characters in them. -/
theorem growth_le_of_ne_nil (nonempty : ∀ word ∈ given, word ≠ []) :
    growth given ≤ 2 * given.flatten.length := by
  induction given with
  | nil => exact le_rfl
  | cons word rest ih =>
      obtain ⟨first, others⟩ := List.forall_mem_cons.mp nonempty
      have least := List.length_pos_iff.mpr first
      have later := ih others
      rw [growth_cons, List.flatten_cons, List.length_append]
      omega

/-- A line break takes the place of a space. -/
theorem growth_map_joinWords {division : List (List (List Char))}
    (nonempty : ∀ kept ∈ division, kept ≠ []) :
    growth (division.map joinWords) = growth division.flatten := by
  induction division with
  | nil => rfl
  | cons kept rest ih =>
      obtain ⟨first, others⟩ := List.forall_mem_cons.mp nonempty
      obtain ⟨word, more, rfl⟩ := List.exists_cons_of_ne_nil first
      rw [List.map_cons, growth_cons, length_joinWords, ih others, List.flatten_cons,
        growth_append, growth_cons]
      omega

theorem growth_wrapParagraph_le (budget : Nat) (paragraph : List Char) :
    growth (wrapParagraph budget paragraph) ≤ 2 * paragraph.length + 1 := by
  by_cases spoken : Text.words paragraph = []
  · rw [wrapParagraph_of_blank spoken]
    exact Nat.le_add_left 1 _
  · have solid (kept : List (List Char))
        (member : kept ∈ fillLines budget {} (Text.words paragraph)) :=
      isWord_of_mem_fillLines member
    have letters : (Text.words paragraph).flatten.length ≤ paragraph.length := by
      rw [Text.flatten_words]
      exact List.length_filter_le _ _
    have nonempty : ∀ word ∈ (fillLines budget {} (Text.words paragraph)).flatten, word ≠ [] := by
      intro word member
      obtain ⟨kept, listed, inside⟩ := List.mem_flatten.mp member
      exact ((solid kept listed).2 word inside).nonempty
    have doubled := growth_le_of_ne_nil nonempty
    rw [flatten_flatten_fillLines] at doubled
    rw [(wrapParagraph_of_words budget spoken).2,
      growth_map_joinWords fun kept member => (solid kept member).1]
    exact (doubled.trans (Nat.mul_le_mul_left 2 letters)).trans (Nat.le_succ _)

/-- Wrapping at most doubles a text. -/
theorem growth_wrap_le (text : List Char) (budget : Int) :
    growth (wrap text budget) ≤ 2 * (text.length + 1) := by
  have whole : growth (Text.paragraphs text) = text.length + 1 := growth_pieces _ text
  rw [wrap, ← whole]
  split
  next => omega
  next =>
    induction Text.paragraphs text with
    | nil => exact le_rfl
    | cons paragraph rest ih =>
        have first := growth_wrapParagraph_le budget.toNat paragraph
        rw [List.flatMap_cons, growth_append, growth_cons]
        omega

/-! ## The fewest lines -/

/-- A division of words into consecutive lines on which they fit. -/
structure Divides (budget : Int) (given : List (List Char)) (division : List (List (List Char))) :
    Prop where
  whole : division.flatten = given
  fits : ∀ words ∈ division, Fits budget words

/-- Greedy filling stays ahead where another division goes on with its line. -/
theorem foldl_advance_le_growth {standing : Standing} {finished length : Nat}
    (positive : 0 < budget) (nonempty : ∀ word ∈ more, word ≠ [])
    (room : length + growth more ≤ budget + 1)
    (ahead : standing ≤ toLex (finished, length)) :
    more.foldl (advance budget) standing ≤ toLex (finished, length + growth more) := by
  induction more generalizing standing length with
  | nil => exact ahead
  | cons word rest ih =>
      obtain ⟨first, nonempty⟩ := List.forall_mem_cons.mp nonempty
      rw [growth_cons] at room ⊢
      have joined : length + word.length ≤ budget := by omega
      have next := advance_le_advance positive le_rfl first ahead
      rw [advance_of_joins joined] at next
      have last := ih nonempty (by omega) next
      rwa [← Nat.add_assoc, ← Nat.add_assoc]

theorem foldl_advance_le_line {standing : Standing} {finished : Nat} (positive : 0 < budget)
    (fit : Fits budget (word :: more)) (nonempty : ∀ other ∈ more, other ≠ [])
    (started : standing ≤ toLex (finished, word.length)) :
    more.foldl (advance budget) standing ≤
      toLex (finished, (joinWords (word :: more)).length) := by
  have room := fit.joined
  rw [length_joinWords] at room ⊢
  exact foldl_advance_le_growth positive nonempty (by omega) started

/-- It stays ahead where another division begins a line. -/
theorem advance_le_ofWord {standing : Standing} {finished length : Nat} (positive : 0 < budget)
    (nonempty : word ≠ []) (fits : word.length ≤ budget)
    (ahead : standing ≤ toLex (finished, length)) :
    advance budget standing word ≤ toLex (finished + 1, word.length) := by
  refine (advance_le_advance positive le_rfl nonempty ahead).trans ?_
  by_cases joins : length + word.length ≤ budget
  · rw [advance_of_joins joins]
    exact Prod.Lex.toLex_le_toLex.mpr (.inl (Nat.lt_succ_self finished))
  · rw [advance_of_breaks joins, Standing.ofWord_of_fits fits]

/-- So it stays ahead through all lines of another division. -/
theorem foldl_advance_le_division {standing : Standing} {finished length : Nat}
    {division : List (List (List Char))} (positive : 0 < budget)
    (fits : ∀ words ∈ division, Fits budget words)
    (limited : ∀ word ∈ division.flatten, word ≠ [] ∧ word.length ≤ budget)
    (ahead : standing ≤ toLex (finished, length)) :
    (ofLex (division.flatten.foldl (advance budget) standing)).1 ≤ finished + division.length := by
  induction division generalizing standing finished length with
  | nil => exact finished_le_finished ahead
  | cons words rest ih =>
      obtain ⟨fit, others⟩ := List.forall_mem_cons.mp fits
      obtain ⟨word, more, rfl⟩ := List.exists_cons_of_ne_nil fit.nonempty
      rw [List.flatten_cons, List.forall_mem_append, List.forall_mem_cons] at limited
      obtain ⟨⟨⟨nonempty, single⟩, several⟩, limited⟩ := limited
      have started := advance_le_ofWord positive nonempty single ahead
      have filled := foldl_advance_le_line positive fit
        (fun other member => (several other member).1) started
      rw [List.flatten_cons, List.cons_append, List.foldl_cons, List.foldl_append]
      have counted := ih others limited filled
      rw [List.length_cons]
      omega

/-- Words that need not be cut are divided among the lines of their paragraph. -/
theorem divides_fillLines {paragraph : List Char} (positive : 0 < budget)
    (limited : ∀ word ∈ Text.words paragraph, word.length ≤ budget) :
    Divides budget (Text.words paragraph) (fillLines budget {} (Text.words paragraph)) := by
  constructor
  · have uncut : (Text.words paragraph).map (cutParts budget) =
        (Text.words paragraph).map ([·]) :=
      List.map_congr_left fun word member => cutParts_of_fits (limited word member)
    rw [flatten_fillLines, List.flatMap_def, uncut, ← List.flatMap_def, List.flatMap_singleton']
    rfl
  · intro words member
    exact fits_of_mem_fillLines positive (OpenLine.sound_empty budget) member

/-- No division of words that need not be cut has fewer lines. -/
theorem length_wrapParagraph_le_division {paragraph : List Char}
    {division : List (List (List Char))} (positive : 0 < budget)
    (spoken : Text.words paragraph ≠ [])
    (limited : ∀ word ∈ Text.words paragraph, word.length ≤ budget)
    (divides : Divides budget (Text.words paragraph) division) :
    (wrapParagraph budget paragraph).length ≤ division.length := by
  have proper : ∀ word ∈ Text.words paragraph, word ≠ [] ∧ word.length ≤ budget := by
    intro word member
    exact ⟨(Text.isWord_of_mem_words member).nonempty, limited word member⟩
  obtain ⟨whole, fits⟩ := divides
  cases division with
  | nil => exact absurd whole.symm spoken
  | cons words rest =>
      obtain ⟨fit, others⟩ := List.forall_mem_cons.mp fits
      obtain ⟨word, more, rfl⟩ := List.exists_cons_of_ne_nil fit.nonempty
      rw [← whole, List.flatten_cons, List.forall_mem_append, List.forall_mem_cons] at proper
      obtain ⟨⟨⟨nonempty, single⟩, several⟩, proper⟩ := proper
      have started : Standing.ofWord budget 0 word ≤ toLex (0, word.length) :=
        (Standing.ofWord_of_fits single 0).le
      have filled := foldl_advance_le_line positive fit
        (fun other member => (several other member).1) started
      have counted := foldl_advance_le_division positive others proper filled
      have listed : Text.words paragraph = word :: (more ++ rest.flatten) := whole.symm
      rw [length_wrapParagraph listed, List.foldl_append, List.length_cons]
      omega

/-- Wrapping goes paragraph by paragraph. No line exceeds the budget by more than one character, and
none does without a space. A paragraph whose words need not be cut is divided into lines of this
kind, and no other division of its words into such lines has fewer of them. -/
theorem fewestLines_wrap (text : List Char) {budget : Int} (positive : 1 ≤ budget) :
    (∀ line ∈ wrap text budget,
      line.length ≤ budget + 1 ∧ (' ' ∉ line → line.length ≤ budget)) ∧
    wrap text budget = (Text.paragraphs text).flatMap (wrap · budget) ∧
    ∀ paragraph ∈ Text.paragraphs text, Text.words paragraph ≠ [] →
      (∀ word ∈ Text.words paragraph, word.length ≤ budget) →
      (∃ division, Divides budget (Text.words paragraph) division ∧
        wrap paragraph budget = division.map joinWords) ∧
      ∀ division, Divides budget (Text.words paragraph) division →
        (wrap paragraph budget).length ≤ division.length := by
  obtain ⟨size, rfl⟩ := Int.eq_ofNat_of_zero_le (zero_le_one.trans positive)
  have positive : 0 < size := by omega
  have lines (given : List Char) :
      wrap given size = (Text.paragraphs given).flatMap (wrapParagraph size) := by
    rw [wrap, if_neg (by omega), Int.toNat_natCast]
  have alone : ∀ paragraph ∈ Text.paragraphs text,
      wrap paragraph size = wrapParagraph size paragraph := by
    intro paragraph member
    rw [lines, Text.paragraphs_of_mem_paragraphs member, List.flatMap_singleton]
  refine ⟨?_, ?_, ?_⟩
  · intro line member
    rw [lines] at member
    obtain ⟨paragraph, -, member⟩ := List.mem_flatMap.mp member
    exact length_of_mem_wrapParagraph positive member
  · rw [lines, List.flatMap_def, List.flatMap_def, List.map_congr_left alone]
  · intro paragraph member spoken limited
    have limited : ∀ word ∈ Text.words paragraph, word.length ≤ size := by
      intro word inside
      exact_mod_cast limited word inside
    rw [alone paragraph member]
    constructor
    · exact ⟨_, divides_fillLines positive limited, (wrapParagraph_of_words size spoken).2⟩
    · intro division divides
      exact length_wrapParagraph_le_division positive spoken limited divides

/-- Two lines hold these words, whichever line has the one that both have room for. -/
theorem fewestLines_shortWords :
    ("ab cd e".toList ∈ Text.paragraphs "ab cd e\nfghij".toList ∧
      Divides 4 (Text.words "ab cd e".toList) [["ab".toList], ["cd".toList, "e".toList]]) ∧
      (wrap "ab cd e".toList 4).length ≤ 2 := by
  have member : "ab cd e".toList ∈ Text.paragraphs "ab cd e\nfghij".toList := by decide +kernel
  have divides : Divides 4 (Text.words "ab cd e".toList)
      [["ab".toList], ["cd".toList, "e".toList]] := by
    constructor
    · decide +kernel
    · intro words listed
      rcases List.mem_pair.mp listed with rfl | rfl
      · exact fits_single (by decide)
      · constructor
        · decide
        · intro word alone
          exact absurd (congrArg List.length alone) (by simp)
        · decide
  have least := (fewestLines_wrap "ab cd e\nfghij".toList (by decide : (1 : Int) ≤ 4)).2.2
    "ab cd e".toList member (by decide +kernel) (by decide +kernel)
  exact ⟨⟨member, divides⟩, least.2 _ divides⟩

end Montage.Caption
