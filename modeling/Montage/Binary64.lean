import Montage.ArithmeticError

/-!
# Binary64 numbers

A finite binary64 number is a signed significand scaled by a power of two, held in the one form
the format stores. Every operation is computed on exact rationals and rounded once at the end,
to the nearest number of the format and to the even significand on a tie.

Division by zero and the conversions that have no answer are errors of the type
`ArithmeticError`, so a caller sees in the type where a number may be missing.
-/

namespace Montage

/-- A power of two. -/
def powerOfTwo (exponent : Nat) : Nat :=
  Nat.pow 2 exponent

/-- A significand and exponent are canonical when the significand uses all 53 bits, or the
exponent is the least one. Each finite value then has one form. -/
def Binary64.Canonical (significand : Nat) (exponent : Int) : Prop :=
  significand < powerOfTwo 53 ∧ -1074 ≤ exponent ∧ exponent ≤ 971 ∧
    (exponent = -1074 ∨ powerOfTwo 52 ≤ significand)

instance (significand : Nat) (exponent : Int) :
    Decidable (Binary64.Canonical significand exponent) := by
  unfold Binary64.Canonical; infer_instance

/-- A binary64 number. Zero carries a sign and there is a single value that is no number. -/
inductive Binary64 where
  | finite (negative : Bool) (significand : Nat) (exponent : Int)
      (canonical : Binary64.Canonical significand exponent)
  | infinite (negative : Bool)
  | nan
  deriving DecidableEq

namespace Binary64

/-- The zero of the given sign. -/
def zero (negative : Bool) : Binary64 :=
  .finite negative 0 (-1074) (by decide)

instance : Inhabited Binary64 := ⟨zero false⟩

/-- The exact value of a finite number. -/
def toRat? : Binary64 → Option Rat
  | .finite negative significand exponent _ =>
      let magnitude : Rat := (significand : Rat) * (2 : Rat) ^ exponent
      some (if negative then -magnitude else magnitude)
  | .infinite _ => none
  | .nan => none

/-- The sign bit; the value that is no number counts as positive. -/
def isNegative : Binary64 → Bool
  | .finite negative _ _ _ => negative
  | .infinite negative => negative
  | .nan => false

/-! ## Rounding -/

/-- The integer nearest to a quotient; a half goes to the even neighbour. -/
def roundQuotient (numerator denominator : Nat) : Nat :=
  let quotient := numerator / denominator
  let remainder := numerator % denominator
  if 2 * remainder < denominator then quotient
  else if denominator < 2 * remainder then quotient + 1
  else if quotient % 2 = 0 then quotient
  else quotient + 1

/-- The exponent of the greatest power of two that is at most a positive quotient. The difference
of the two lengths is either that exponent or one more. -/
def binaryExponent (numerator denominator : Nat) : Int :=
  let estimate : Int := (numerator.log2 : Int) - (denominator.log2 : Int)
  let scaledNumerator := numerator * powerOfTwo (-estimate).toNat
  let scaledDenominator := denominator * powerOfTwo estimate.toNat
  if scaledDenominator ≤ scaledNumerator then estimate else estimate - 1

/-- A number from its parts. Parts that are not canonical come only from a significand beyond
the largest exponent, which is an infinity. -/
def assemble (negative : Bool) (significand : Nat) (exponent : Int) : Binary64 :=
  if canonical : Canonical significand exponent then
    .finite negative significand exponent canonical
  else .infinite negative

/-- The binary64 number nearest to a non-negative quotient, with the given sign. -/
def ofQuotient (negative : Bool) (numerator denominator : Nat) : Binary64 :=
  let exponent := max (-1074) (binaryExponent numerator denominator - 52)
  let scaledNumerator := numerator * powerOfTwo (-exponent).toNat
  let scaledDenominator := denominator * powerOfTwo exponent.toNat
  let significand := roundQuotient scaledNumerator scaledDenominator
  if significand = powerOfTwo 53 then assemble negative (powerOfTwo 52) (exponent + 1)
  else assemble negative significand exponent

/-- The binary64 number nearest to a rational. A zero has no sign of its own and takes the one
that is given. -/
def ofRat (value : Rat) (zeroNegative : Bool) : Binary64 :=
  if value = 0 then zero zeroNegative
  else ofQuotient (value < 0) value.num.natAbs value.den

instance (value : Nat) : OfNat Binary64 value := ⟨ofRat value false⟩

instance : OfScientific Binary64 where
  ofScientific mantissa exponentSign decimalExponent :=
    ofRat (OfScientific.ofScientific mantissa exponentSign decimalExponent) false

/-- The number nearest to a natural number; beyond the range it is an infinity. -/
def ofNat (value : Nat) : Binary64 :=
  ofRat value false

/-- The number nearest to an integer. -/
def ofInt (value : Int) : Except ArithmeticError Binary64 :=
  match ofRat value false with
  | .infinite _ => .error .integerTooLarge
  | number => .ok number

/-- The number nearest to the quotient of two integers, rounded once. -/
def ofIntQuotient (numerator denominator : Int) : Except ArithmeticError Binary64 :=
  if denominator = 0 then .error .divisionByZero
  else
    match ofRat ((numerator : Rat) / (denominator : Rat)) (denominator < 0) with
    | .infinite _ => .error .quotientTooLarge
    | number => .ok number

/-! ## Arithmetic -/

/-- The number with the opposite sign. -/
def negate : Binary64 → Binary64
  | .finite negative significand exponent canonical =>
      .finite (!negative) significand exponent canonical
  | .infinite negative => .infinite (!negative)
  | .nan => .nan

/-- The sum, rounded once. Two zeros of one sign keep it, and a sum that cancels is positive. -/
def add (left right : Binary64) : Binary64 :=
  match left, right with
  | .nan, _ => .nan
  | _, .nan => .nan
  | .infinite leftNegative, .infinite rightNegative =>
      if leftNegative = rightNegative then .infinite leftNegative else .nan
  | .infinite negative, _ => .infinite negative
  | _, .infinite negative => .infinite negative
  | left, right =>
      ofRat (left.toRat?.getD 0 + right.toRat?.getD 0) (left.isNegative && right.isNegative)

/-- The difference, which is the sum with the opposite number. -/
def sub (left right : Binary64) : Binary64 :=
  left.add right.negate

/-- Holds of both zeros. -/
def isZero : Binary64 → Bool
  | .finite _ significand _ _ => significand == 0
  | _ => false

/-- The product, rounded once. -/
def mul (left right : Binary64) : Binary64 :=
  let negative := left.isNegative != right.isNegative
  match left, right with
  | .nan, _ => .nan
  | _, .nan => .nan
  | .infinite _, other => if other.isZero then .nan else .infinite negative
  | other, .infinite _ => if other.isZero then .nan else .infinite negative
  | left, right => ofRat (left.toRat?.getD 0 * right.toRat?.getD 0) negative

/-- The quotient by a number that is not zero, rounded once. -/
def quotient (left right : Binary64) : Binary64 :=
  let negative := left.isNegative != right.isNegative
  match left, right with
  | .nan, _ => .nan
  | _, .nan => .nan
  | .infinite _, .infinite _ => .nan
  | .infinite _, _ => .infinite negative
  | _, .infinite _ => zero negative
  | left, right => ofRat (left.toRat?.getD 0 / right.toRat?.getD 0) negative

/-- The quotient, rounded once. A zero divisor is refused whatever stands above it. -/
def div (left right : Binary64) : Except ArithmeticError Binary64 :=
  if right.isZero then .error .divisionByZero else .ok (left.quotient right)

instance : Neg Binary64 := ⟨negate⟩
instance : Add Binary64 := ⟨add⟩
instance : Sub Binary64 := ⟨sub⟩
instance : Mul Binary64 := ⟨mul⟩

/-! ## Order -/

/-- The numeric order. No comparison with the value that is no number holds. -/
def lessThan (left right : Binary64) : Bool :=
  match left, right with
  | .nan, _ => false
  | _, .nan => false
  | .infinite leftNegative, .infinite rightNegative => leftNegative && !rightNegative
  | .infinite leftNegative, _ => leftNegative
  | _, .infinite rightNegative => !rightNegative
  | left, right => left.toRat?.getD 0 < right.toRat?.getD 0

/-- Numeric equality, which joins the two zeros and separates the value that is no number from
itself. -/
def equals (left right : Binary64) : Bool :=
  match left, right with
  | .nan, _ => false
  | _, .nan => false
  | .infinite leftNegative, .infinite rightNegative => leftNegative == rightNegative
  | .infinite _, _ => false
  | _, .infinite _ => false
  | left, right => left.toRat?.getD 0 == right.toRat?.getD 0

instance : LT Binary64 := ⟨fun left right => left.lessThan right = true⟩
instance : LE Binary64 := ⟨fun left right => (left.lessThan right || left.equals right) = true⟩

instance (left right : Binary64) : Decidable (left < right) :=
  inferInstanceAs (Decidable (left.lessThan right = true))

instance (left right : Binary64) : Decidable (left ≤ right) :=
  inferInstanceAs (Decidable ((left.lessThan right || left.equals right) = true))

/-- The lesser of two numbers. The first stays unless the second is strictly less. -/
def least (first second : Binary64) : Binary64 :=
  if second < first then second else first

/-- The greater of two numbers. The first stays unless the second is strictly greater. -/
def greatest (first second : Binary64) : Binary64 :=
  if first < second then second else first

/-- A number, or another one where it is absent or zero. -/
def unlessZero (value : Option Binary64) (standard : Binary64) : Binary64 :=
  match value with
  | some number => if number.isZero then standard else number
  | none => standard

/-! ## Integers -/

/-- Convert with a rounding rule on exact rationals. -/
def toIntBy (rule : Rat → Int) (number : Binary64) : Except ArithmeticError Int :=
  match number with
  | .nan => .error .nanToInteger
  | .infinite _ => .error .infinityToInteger
  | number => .ok (rule (number.toRat?.getD 0))

/-- The greatest integer that is not above the number. -/
def floor (number : Binary64) : Except ArithmeticError Int :=
  number.toIntBy Rat.floor

/-- The integer part; the fraction is dropped. -/
def truncate (number : Binary64) : Except ArithmeticError Int :=
  number.toIntBy fun value => value.num.tdiv value.den

/-- The nearest integer; a half goes to the even neighbour. -/
def round (number : Binary64) : Except ArithmeticError Int :=
  number.toIntBy fun value =>
    let magnitude : Int := roundQuotient value.num.natAbs value.den
    if value < 0 then -magnitude else magnitude

/-- The integer that a number is, if it is one. -/
def toInt? (number : Binary64) : Option Int :=
  match number.toRat? with
  | some value => if value.den = 1 then some value.num else none
  | none => none

end Binary64

end Montage
