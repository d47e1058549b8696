import Montage.Binary64.Decimal

/-!
# Numbers as they are written

A number that is written without a fraction and an exponent is an integer of any size; every
other number is a binary64 number. The distinction shows where an integer is printed exactly
although no binary64 number equals it.
-/

namespace Montage

/-- An integer of any size or a binary64 number. -/
inductive Number where
  | int (value : Int)
  | real (value : Binary64)
  deriving DecidableEq

namespace Number

instance : Inhabited Number := ⟨.int 0⟩

instance (value : Nat) : OfNat Number value := ⟨.int value⟩

/-- The number as a binary64 number, which only an integer beyond the range has not. -/
def toBinary64 : Number → Except ArithmeticError Binary64
  | .int value => Binary64.ofInt value
  | .real value => .ok value

/-- Holds of every zero. The value that is no number is none. -/
def isZero : Number → Bool
  | .int value => value == 0
  | .real value => value.isZero

/-- Holds of every number above zero. -/
def isPositive : Number → Bool
  | .int value => 0 < value
  | .real value => decide (0 < value)

/-- The sum. Two integers are added exactly; any other sum is rounded once. -/
def add (left right : Number) : Except ArithmeticError Number :=
  match left, right with
  | .int left, .int right => .ok (.int (left + right))
  | left, right => do return .real ((← left.toBinary64) + (← right.toBinary64))

/-- The product. Two integers are multiplied exactly; any other product is rounded once. -/
def mul (left right : Number) : Except ArithmeticError Number :=
  match left, right with
  | .int left, .int right => .ok (.int (left * right))
  | left, right => do return .real ((← left.toBinary64) * (← right.toBinary64))

/-- The text of a number by itself: all digits of an integer, the shortest digits of a binary64
number. -/
def text : Number → List Char
  | .int value => integerText value
  | .real value => value.shortestText

end Number

end Montage
