import Montage.Binary64

/-!
# Decimal forms of binary64 numbers

A decimal is read as its exact value and rounded once. Two printed forms exist: a fixed number
of places, where the exact value is rounded half to even, and the shortest digits that read back
as the same number.

The shortest form is found on the decimal grids of 1 to 17 digits. The interval of rationals that
round to the number is known exactly, so each grid is tested at the two neighbours of the value.
-/

namespace Montage

/-! ## Digits -/

/-- A power of ten. -/
def powerOfTen (exponent : Nat) : Nat :=
  Nat.pow 10 exponent

/-- How many decimal digits an integer has; zero has none. -/
def digitCount (value : Nat) : Nat :=
  if value = 0 then 0 else (Nat.toDigits 10 value).length

/-- The decimal digits of an integer. -/
def digitsOf (value : Nat) : List Char :=
  Nat.toDigits 10 value

/-- A decimal text of at least `width` characters, filled with zeros on the left. -/
def paddedDigits (width value : Nat) : List Char :=
  let digits := digitsOf value
  List.replicate (width - digits.length) '0' ++ digits

/-- An integer in decimal with a minus sign where it is negative. -/
def integerText (value : Int) : List Char :=
  if value < 0 then '-' :: digitsOf value.natAbs else digitsOf value.natAbs

namespace Binary64

/-! ## Reading -/

/-- The number nearest to `coefficient · 10 ^ exponent`. A size far outside the range decides
before the power is formed, so a large exponent costs nothing. -/
def ofDecimal (negative : Bool) (coefficient : Nat) (exponent : Int) : Binary64 :=
  let magnitude := (digitCount coefficient : Int) + exponent
  if coefficient = 0 then zero negative
  else if 400 < magnitude then .infinite negative
  else if magnitude < -400 then zero negative
  else ofQuotient negative (coefficient * powerOfTen exponent.toNat) (powerOfTen (-exponent).toNat)

/-! ## Fixed places -/

/-- A decimal with exactly `places` digits after the point. The sign is that of the number, also
where all digits are zero. -/
def fixedText (places : Nat) (number : Binary64) : List Char :=
  match number with
  | .nan => "nan".toList
  | .infinite negative => if negative then "-inf".toList else "inf".toList
  | number =>
      let value := number.toRat?.getD 0
      let units := roundQuotient (value.num.natAbs * powerOfTen places) value.den
      let whole := digitsOf (units / powerOfTen places)
      let fraction := paddedDigits places (units % powerOfTen places)
      let digits := whole ++ '.' :: fraction
      if number.isNegative then '-' :: digits else digits

/-! ## Shortest digits -/

/-- The exponent of the leading decimal digit of a positive rational. -/
def decimalExponent (value : Rat) : Int :=
  if 1 ≤ value then (digitCount value.floor.toNat : Int) - 1
  else -(digitCount (value⁻¹.ceil.toNat - 1) : Int)

/-- The rationals that round to a positive finite number. The ends belong to it when the
significand is even, because ties go to the even neighbour. -/
structure RoundingInterval where
  lower : Rat
  upper : Rat
  closed : Bool

/-- Membership in a rounding interval. -/
def RoundingInterval.contains (interval : RoundingInterval) (value : Rat) : Bool :=
  if interval.closed then interval.lower ≤ value && value ≤ interval.upper
  else interval.lower < value && value < interval.upper

/-- The rounding interval of a significand and exponent. Below the least significand of a binade
the numbers lie twice as close. -/
def roundingInterval (significand : Nat) (exponent : Int) : RoundingInterval :=
  let unit : Rat := (2 : Rat) ^ exponent
  let value : Rat := (significand : Rat) * unit
  let below : Rat :=
    if significand = powerOfTwo 52 ∧ -1074 < exponent then unit / 4 else unit / 2
  { lower := value - below, upper := value + unit / 2, closed := significand % 2 = 0 }

/-- A point of a decimal grid, as a coefficient and the exponent of its last digit. -/
structure GridPoint where
  coefficient : Nat
  exponent : Int

/-- The exact value of a point. -/
def GridPoint.value (point : GridPoint) : Rat :=
  (point.coefficient : Rat) * (10 : Rat) ^ point.exponent

/-- The point nearest to a value on one grid that lies in the interval, if there is one. A tie
goes to the even coefficient. -/
def nearestOn (interval : RoundingInterval) (value : Rat) (exponent : Int) : Option GridPoint :=
  let below : GridPoint := ⟨(value / (10 : Rat) ^ exponent).floor.toNat, exponent⟩
  let above : GridPoint := ⟨below.coefficient + 1, exponent⟩
  let lowDistance := value - below.value
  let highDistance := above.value - value
  match interval.contains below.value, interval.contains above.value with
  | true, true =>
      if lowDistance < highDistance then some below
      else if highDistance < lowDistance then some above
      else if below.coefficient % 2 = 0 then some below
      else some above
  | true, false => some below
  | false, true => some above
  | false, false => none

/-- The first grid, from coarse to fine, with a point in the interval. Seventeen digits always
suffice, so the last grid needs no test of its own. -/
def shortestFrom (interval : RoundingInterval) (value : Rat) (leading : Int) :
    Nat → Nat → GridPoint
  | 0, digits => ⟨(value / (10 : Rat) ^ (leading - digits)).floor.toNat, leading - digits⟩
  | remaining + 1, digits =>
      match nearestOn interval value (leading - digits) with
      | some point => point
      | none => shortestFrom interval value leading remaining (digits + 1)

/-- The shortest decimal that reads back as a positive finite number, and of those the nearest. -/
def shortestPoint (significand : Nat) (exponent : Int) : GridPoint :=
  let value : Rat := (significand : Rat) * (2 : Rat) ^ exponent
  shortestFrom (roundingInterval significand exponent) value (decimalExponent value) 17 0

/-- How the shortest digits are laid out. -/
structure Layout where
  /-- The least exponent that is written positionally. -/
  positionalFrom : Int
  /-- The first exponent that is written with a power again. -/
  positionalBelow : Int
  /-- The least number of digits of a written exponent. -/
  exponentWidth : Nat

/-- Numbers from `0.0001` up to below `10 ^ 16` are positional and keep a fraction; the others
carry a signed exponent of at least two digits. -/
def readableLayout : Layout :=
  { positionalFrom := -4, positionalBelow := 16, exponentWidth := 2 }

/-- Trailing zeros of a digit sequence carry no information once the leading exponent is known. -/
def dropTrailingZeros (digits : List Char) : List Char :=
  (digits.reverse.dropWhile (· == '0')).reverse

/-- Lay out significant digits whose first one stands at the given decimal exponent. -/
def Layout.write (layout : Layout) (digits : List Char) (leading : Int) : List Char :=
  if layout.positionalFrom ≤ leading ∧ leading < layout.positionalBelow then
    if leading < 0 then
      "0.".toList ++ List.replicate ((-leading).toNat - 1) '0' ++ digits
    else
      let places := leading.toNat + 1
      let whole := digits.take places ++ List.replicate (places - digits.length) '0'
      let fraction := digits.drop places
      whole ++ '.' :: (if fraction.isEmpty then ['0'] else fraction)
  else
    let mantissa :=
      match digits with
      | [] => []
      | [first] => [first]
      | first :: rest => first :: '.' :: rest
    let sign := if leading < 0 then '-' else '+'
    mantissa ++ 'e' :: sign :: paddedDigits layout.exponentWidth leading.natAbs

/-- The shortest text that reads back as the same number. -/
def shortestText (number : Binary64) : List Char :=
  match number with
  | .nan => "nan".toList
  | .infinite negative => if negative then "-inf".toList else "inf".toList
  | .finite negative significand exponent _ =>
      let magnitude :=
        if significand = 0 then "0.0".toList
        else
          let point := shortestPoint significand exponent
          let digits := digitsOf point.coefficient
          let leading := point.exponent + (digits.length : Int) - 1
          readableLayout.write (dropTrailingZeros digits) leading
      if negative then '-' :: magnitude else magnitude

end Binary64

end Montage
