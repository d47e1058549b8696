import Montage.Json
import Montage.Schema.Numeral

/-!
# Scalar values of a document

A number may be written as a number, a truth value or a text, because editors send all three. A
text is read by the grammars of `Montage.Schema.Numeral`; what does not fit is refused with a cause
that tells a wrong kind of value from an unreadable text.
-/

namespace Montage.Schema

/-- A check of a value of a document. -/
abbrev Reader (α : Type) := Json → Checked α

/-- A string and nothing else. -/
def readString : Reader String
  | .string value => .valid value
  | _ => .refuse .notString

/-- A number, in any of the forms that editors send. -/
def readNumber : Reader Binary64
  | .number number =>
      match number.toBinary64 with
      | .ok value => .valid value
      | .error _ => .refuse .notNumber
  | .bool value => .valid (if value then 1 else 0)
  | .string text =>
      match realOf? text.toList with
      | some value => .valid value
      | none => .refuse .unreadableNumber
  | _ => .refuse .notNumber

/-- Holds of the integers that fit into a machine word of 64 bits. -/
def fitsWord (value : Int) : Bool :=
  -(powerOfTwo 63 : Int) ≤ value && value < powerOfTwo 63

/-- The integer that a number with a point stands for. It lies strictly between the bounds of a
machine word. -/
def wholeOf (value : Binary64) : Except Cause Int :=
  match value.toInt? with
  | some whole => if whole.natAbs < powerOfTwo 63 then .ok whole else .error .oversizedInteger
  | none =>
      match value with
      | .finite .. => .error .fractionalInteger
      | _ => .error .unboundedInteger

/-- An integer, or a refusal for the cause that was found. -/
def ofIntegerResult : Except Cause Int → Checked Int
  | .ok value => .valid value
  | .error cause => .refuse cause

/-- An integer, in any of the forms that editors send. -/
def readInteger : Reader Int
  | .number (.int value) => .valid value
  | .number (.real value) => ofIntegerResult (wholeOf value)
  | .bool value => .valid (if value then 1 else 0)
  | .string text => ofIntegerResult (integerOf text.toList)
  | _ => .refuse .notInteger

/-- The truth value that a word stands for, in any mixture of capital and small letters. -/
def truthOf? (text : String) : Option Bool :=
  let word := String.ofList (Text.lowerAscii text.toList)
  if ["0", "off", "f", "false", "n", "no"].contains word then some false
  else if ["1", "on", "t", "true", "y", "yes"].contains word then some true
  else none

/-- The truth value of an integer, which only zero and one have. -/
def truthOfInteger (value : Int) : Checked Bool :=
  if value = 0 then .valid false
  else if value = 1 then .valid true
  else .refuse .unreadableBoolean

/-- A truth value, in any of the forms that editors send. A number that is no integer, or lies
outside a machine word, is of another kind. -/
def readBoolean : Reader Bool
  | .bool value => .valid value
  | .number (.int value) => if fitsWord value then truthOfInteger value else .refuse .notBoolean
  | .number (.real value) =>
      match wholeOf value with
      | .ok whole => truthOfInteger whole
      | .error _ => .refuse .notBoolean
  | .string text =>
      match truthOf? text with
      | some value => .valid value
      | none => .refuse .unreadableBoolean
  | _ => .refuse .notBoolean

/-- One of several words, exactly as written. -/
def readChoice {α : Type} (choices : List (String × α)) : Reader α
  | .string text =>
      match choices.find? (·.1 == text) with
      | some (_, value) => .valid value
      | none => .refuse (.notChoice (choices.map (·.1)))
  | _ => .refuse (.notChoice (choices.map (·.1)))

end Montage.Schema
