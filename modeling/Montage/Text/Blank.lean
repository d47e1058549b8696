/-!
# Blanks and the pieces of a text

The blanks are the characters that separate words: the ASCII controls from tab to carriage return
and from file to unit separator, the space, and the spaces and line separators of Unicode. Words,
paragraphs and list entries are all pieces of a text between separators.
-/

namespace Montage.Text

/-- Holds of the characters that separate words. -/
def isBlank (character : Char) : Bool :=
  let code := character.toNat
  (0x09 ≤ code && code ≤ 0x0D) || (0x1C ≤ code && code ≤ 0x20) || code == 0x85 || code == 0xA0 ||
    code == 0x1680 || (0x2000 ≤ code && code ≤ 0x200A) || code == 0x2028 || code == 0x2029 ||
    code == 0x202F || code == 0x205F || code == 0x3000

/-- Drop characters of a class at both ends. -/
def stripBy (dropped : Char → Bool) (text : List Char) : List Char :=
  ((text.dropWhile dropped).reverse.dropWhile dropped).reverse

/-- Drop the blanks at both ends. -/
def strip (text : List Char) : List Char :=
  stripBy isBlank text

/-- The pieces of a text between separators. There is one piece more than there are separators,
and pieces may be empty. -/
def pieces (separator : Char → Bool) : List Char → List (List Char)
  | [] => [[]]
  | character :: rest =>
      if separator character then [] :: pieces separator rest
      else
        match pieces separator rest with
        | [] => [[character]]
        | first :: others => (character :: first) :: others

/-- The words of a text: its maximal runs without a blank. -/
def words (text : List Char) : List (List Char) :=
  (pieces isBlank text).filter fun piece => !piece.isEmpty

/-- The paragraphs of a text, which line feeds separate. -/
def paragraphs (text : List Char) : List (List Char) :=
  pieces (· == '\n') text

/-- Holds when `part` stands somewhere in a text without a gap. -/
def occursIn (part : List Char) : List Char → Bool
  | [] => part.isEmpty
  | character :: rest => part.isPrefixOf (character :: rest) || occursIn part rest

/-- Lower the capital letters of the ASCII alphabet. -/
def lowerAscii (text : List Char) : List Char :=
  text.map Char.toLower

end Montage.Text
