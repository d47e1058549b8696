import Montage.Text.Blank
import Montage.Text.Digit

/-!
# Colours

Filters take colours by name or as `#rrggbb`. The functional notation of style sheets is rewritten
to the second form; its opacity is dropped. Every other text is passed on as it is.
-/

namespace Montage.Caption

/-- Decimal digits in front of a text, of which there must be one, and what follows them. -/
def takeDigits? (text : List Char) : Option (List Char × List Char) :=
  match text.takeWhile Text.isDecimalDigit with
  | [] => none
  | digits => some (digits, text.dropWhile Text.isDecimalDigit)

/-- A comma, blanks and digits in front of a text. -/
def takeNextDigits? : List Char → Option (List Char × List Char)
  | ',' :: rest => takeDigits? (rest.dropWhile Text.isBlank)
  | _ => none

/-- Holds of the characters of an opacity. -/
def isOpacityCharacter (character : Char) : Bool :=
  character == '.' || Text.isDecimalDigit character

/-- Holds when a text begins with the end of the notation: an opacity that may be left out, and
the closing bracket. -/
def endsNotation : List Char → Bool
  | ')' :: _ => true
  | ',' :: rest =>
      let opacity := rest.dropWhile Text.isBlank
      !(opacity.takeWhile isOpacityCharacter).isEmpty &&
        (opacity.dropWhile isOpacityCharacter).head? == some ')'
  | _ => false

/-- What follows the name and the opening bracket of the functional notation. -/
def afterOpening? : List Char → Option (List Char)
  | 'r' :: 'g' :: 'b' :: 'a' :: '(' :: rest => some rest
  | 'r' :: 'g' :: 'b' :: '(' :: rest => some rest
  | _ => none

/-- The digits of the three components that the functional notation gives at the front of a
text. -/
def componentsOf? (text : List Char) : Option (List Char × List Char × List Char) := do
  let rest ← afterOpening? text
  let (red, rest) ← takeDigits? rest
  let (green, rest) ← takeNextDigits? rest
  let (blue, rest) ← takeNextDigits? rest
  if endsNotation rest then some (red, green, blue) else none

/-- A component in two hexadecimal digits; it is cut to a byte. -/
def componentText (digits : List Char) : Except ArithmeticError (List Char) := do
  let byte := min (← Text.integerOfDigits digits) 255
  return [Nat.digitChar (byte / 16), Nat.digitChar (byte % 16)]

/-- A colour as filters take it. A component with too many digits has none. -/
def filterColor (color : String) : Except ArithmeticError String :=
  match componentsOf? (Text.strip color.toList) with
  | none => .ok color
  | some (red, green, blue) => do
      let red ← componentText red
      let green ← componentText green
      let blue ← componentText blue
      return String.ofList ('#' :: (red ++ green ++ blue))

/-- The colour of text that names none. -/
def standardTextColor : String := "#ffffff"

/-- The colour of a box whose own colour cannot be used. -/
def standardBoxColor : String := "#000000"

/-- The colour that fills the box of a text. Only a hexadecimal colour is used. -/
def boxColor (transparent : Bool) (color : Option String) :
    Except ArithmeticError (Option String) :=
  match color.filter fun color => !transparent && color != "" with
  | none => .ok none
  | some color => do
      let converted ← filterColor color
      return some (if converted.toList.head? == some '#' then converted else standardBoxColor)

end Montage.Caption
