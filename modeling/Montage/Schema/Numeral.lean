import Montage.Binary64.Decimal
import Montage.Schema.Fault
import Montage.Text.Blank
import Montage.Text.Digit

/-!
# Numerals in texts

Editors send numbers as texts too. A real number is read from a decimal, with or without an
exponent. An integer is read from a plain numeral, to which a text is brought in four steps: its
sign, the zeros in front, a fraction of zeros, and the underscores that group its digits.
-/

namespace Montage.Schema

/-- The blanks of a text around a number. The separators of records and fields are none. -/
def isPadding (character : Char) : Bool :=
  Text.isBlank character && !(0x1C ≤ character.toNat && character.toNat ≤ 0x1F)

/-- Single underscores inside a text, between other characters, may group digits. -/
def dropGrouping (text : List Char) : List Char :=
  if text.head? == some '_' || text.getLast? == some '_' || Text.occursIn ['_', '_'] text then text
  else text.filter (· != '_')

/-- Split a minus sign off a text. -/
def splitMinus : List Char → Bool × List Char
  | '-' :: rest => (true, rest)
  | text => (false, text)

/-- Split a sign of either kind off a text. -/
def splitSign : List Char → Bool × List Char
  | '-' :: rest => (true, rest)
  | '+' :: rest => (false, rest)
  | text => (false, text)

/-! ## Real numbers -/

/-- The value of ASCII digits, of which there must be at least one. -/
def naturalOf? (digits : List Char) : Option Nat :=
  if digits.isEmpty || !digits.all Char.isDigit then none else some (Text.decimalValue digits)

/-- The value of an exponent after its mark. -/
def exponentOf? (text : List Char) : Option Int :=
  let (negative, digits) := splitSign text
  (naturalOf? digits).map fun value => if negative then -(value : Int) else value

/-- The number that an unsigned decimal writes. A digit must stand before or after the point. -/
def magnitudeOf? (negative : Bool) (text : List Char) : Option Binary64 :=
  let isMark (character : Char) : Bool := character == 'e' || character == 'E'
  let significand := text.takeWhile (!isMark ·)
  let whole := significand.takeWhile (· != '.')
  let fraction := (significand.dropWhile (· != '.')).drop 1
  let exponent :=
    match text.dropWhile (!isMark ·) with
    | [] => some 0
    | _ :: rest => exponentOf? rest
  match naturalOf? (whole ++ fraction), exponent with
  | some coefficient, some exponent =>
      some (Binary64.ofDecimal negative coefficient (exponent - fraction.length))
  | _, _ => none

/-- The number that a plain text writes: a decimal, an infinity or the value that is no number. -/
def numberOf? (text : List Char) : Option Binary64 :=
  let (negative, magnitude) := splitSign text
  let word := String.ofList (Text.lowerAscii magnitude)
  if word = "inf" ∨ word = "infinity" then some (.infinite negative)
  else if word = "nan" then some .nan
  else magnitudeOf? negative magnitude

/-- The number that a text writes. Padding and grouping do not go together: a text is read without
its padding, or else without its grouping. -/
def realOf? (text : List Char) : Option Binary64 :=
  (numberOf? (Text.stripBy isPadding text)).or (numberOf? (dropGrouping text))

/-! ## Integers -/

/-- What remains of a numeral after the zeros in front, of which `last` is the one just passed.
Underscores between the zeros are passed too. What remains starts with another digit or a minus
sign; before a point, and at the end of the text, the character just passed is kept. -/
def afterZeros? (last : Char) : List Char → Option (List Char)
  | [] => some [last]
  | character :: rest =>
      if character = '0' ∨ character = '_' then afterZeros? character rest
      else if character = '.' then some (last :: character :: rest)
      else if character.isDigit ∨ character = '-' then some (character :: rest)
      else none

/-- An unsigned numeral without zeros in front. It must start with a digit. -/
def dropLeadingZeros? : List Char → Option (List Char)
  | [] => none
  | character :: rest =>
      if character = '0' then afterZeros? character rest
      else if character.isDigit then some (character :: rest)
      else none

/-- A numeral without a fraction that consists of zeros. -/
def dropZeroFraction (text : List Char) : List Char :=
  match text.dropWhile (· != '.') with
  | [] => text
  | _ :: fraction =>
      if !fraction.isEmpty && fraction.all (· == '0') then text.takeWhile (· != '.') else text

/-- The integer that a plain numeral writes: digits with no zero in front of others, after a minus
sign where it is negative. Only so many digits are read; the sign is none of them. -/
def plainInteger? (text : List Char) : Option Int :=
  let (negative, digits) := splitMinus text
  match digits with
  | '0' :: _ :: _ => none
  | digits =>
      if digitLimit < digits.length then none
      else (naturalOf? digits).map fun value => if negative then -(value : Int) else value

/-- Holds of a text that starts with more digits than are read. Its first digit, which a minus sign
may precede, is no zero; what follows the digits does not matter. -/
def startsOversized (text : List Char) : Bool :=
  let magnitude := (splitMinus text).2
  magnitude.head? != some '0' && digitLimit < (magnitude.takeWhile Char.isDigit).length

/-- The plain numeral to which a text is brought. A minus sign may stand behind the zeros in front,
but no text has two signs. -/
def plainNumeral? (text : List Char) : Option (List Char) :=
  match Text.stripBy isPadding text with
  | '+' :: '-' :: _ => none
  | trimmed =>
      let (negative, magnitude) := splitSign trimmed
      (dropLeadingZeros? magnitude).map fun rest =>
        let plain := dropGrouping (dropZeroFraction rest)
        if negative then '-' :: plain else plain

/-- The integer that a text writes, or why it writes none. A text counts as oversized only where it
shows that as it stands; one that has to be brought to a plain numeral first is unreadable. -/
def integerOf (text : List Char) : Except Cause Int :=
  if startsOversized text then .error .oversizedInteger
  else
    match (plainNumeral? text).bind plainInteger? with
    | some value => .ok value
    | none => .error .unreadableInteger

end Montage.Schema
