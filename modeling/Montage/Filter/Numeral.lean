import Montage.Failure
import Montage.Number

/-!
# Numerals in filter text

A numeral in a filter statement is a plain decimal. A whole number has no point; any other number
has at most six places and no trailing zero.
-/

namespace Montage.Filter

/-- Drop the zeros at the end of a fraction, and the point if nothing follows it. -/
def trimFraction (digits : List Char) : List Char :=
  let trimmed := Binary64.dropTrailingZeros digits
  (trimmed.reverse.dropWhile (· == '.')).reverse

/-- The numeral of a number. An integer is written with all its digits but has to lie in the
range of a binary64 number. -/
def numeral (number : Number) : Except ArithmeticError String :=
  match number with
  | .int value => do
      let _ ← Binary64.ofInt value
      return String.ofList (integerText value)
  | .real value =>
      match value.toInt? with
      | some whole => .ok (String.ofList (integerText whole))
      | none => .ok (String.ofList (trimFraction (value.fixedText 6)))

/-- The condition that the playing time lies between two times. -/
def enableWindow (start finish : Number) : Except ArithmeticError String := do
  let first ← numeral start
  let last ← numeral finish
  return "between(t," ++ first ++ "," ++ last ++ ")"

end Montage.Filter
