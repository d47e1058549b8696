import Montage.Text.Blank

/-!
# Wrapping text into lines

Lines are filled greedily, word by word, under a budget of characters. The space that joins a word
to its line is not counted, so a line may be one character longer than the budget. A word that fits
on no line is cut into pieces of the budget's length.
-/

namespace Montage.Caption

/-- The pieces of a budget's length at the front of a word that is longer than the budget, and
what remains of it. The remainder fits into the budget and is not empty unless the word is. -/
def cutWord (budget : Nat) (word : List Char) : List (List Char) × List Char :=
  if 0 < budget ∧ word.drop budget ≠ [] then
    let (full, remainder) := cutWord budget (word.drop budget)
    (word.take budget :: full, remainder)
  else ([], word)
termination_by word.length
decreasing_by
  simp only [ne_eq, List.drop_eq_nil_iff, List.length_drop] at *
  omega

/-- A line that may still grow: its words, the last one first, and the number of its characters
with one space between two words. -/
structure OpenLine where
  reversed : List (List Char) := []
  length : Nat := 0
  deriving DecidableEq, Repr

namespace OpenLine

/-- A line of one word. -/
def ofWord (word : List Char) : OpenLine :=
  { reversed := [word], length := word.length }

/-- A line with one more word. -/
def push (line : OpenLine) (word : List Char) : OpenLine :=
  match line.reversed with
  | [] => ofWord word
  | words => { reversed := word :: words, length := line.length + 1 + word.length }

/-- The words of a finished line. A line without words is not kept. -/
def close (line : OpenLine) : List (List (List Char)) :=
  match line.reversed with
  | [] => []
  | words => [words.reverse]

end OpenLine

/-- Divide words among lines, the first of which is already begun. -/
def fillLines (budget : Nat) (line : OpenLine) : List (List Char) → List (List (List Char))
  | [] => line.close
  | word :: rest =>
      if line.length + word.length ≤ budget then fillLines budget (line.push word) rest
      else
        let (full, remainder) := cutWord budget word
        line.close ++ full.map ([·]) ++ fillLines budget (.ofWord remainder) rest

/-- The text of a line. -/
def joinWords (words : List (List Char)) : List Char :=
  List.intercalate [' '] words

/-- The lines of one paragraph. A blank paragraph has one empty line. -/
def wrapParagraph (budget : Nat) (paragraph : List Char) : List (List Char) :=
  match fillLines budget {} (Text.words paragraph) with
  | [] => [[]]
  | lines => lines.map joinWords

/-- The lines of a text. Without a positive budget each paragraph is a line as it stands. -/
def wrap (text : List Char) (budget : Int) : List (List Char) :=
  if budget ≤ 0 then Text.paragraphs text
  else (Text.paragraphs text).flatMap (wrapParagraph budget.toNat)

end Montage.Caption
