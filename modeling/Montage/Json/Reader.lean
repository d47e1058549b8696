import Montage.Failure
import Montage.Json
import Montage.Text.Digit

/-!
# Reading JSON text

The reader follows the JSON grammar and accepts the three extra numbers `NaN`, `Infinity` and
`-Infinity`. Control characters may not stand unescaped in a string. Of two equal keys the later
value stays, in the place of the earlier one.

A text is refused at the first place that gives no value: where it leaves the grammar, where an
integer has more digits than are converted, or where containers are nested too deep.

Each function takes the rest of the text and gives what it leaves. A value costs at least one
character, so twice the length of the text bounds the depth of the recursion, and what is left of
that bound is never less than the text that is left.
-/

namespace Montage.Json

/-- Why a text has no value. -/
inductive ReadFault where
  /-- The text does not follow the grammar. -/
  | malformed
  /-- A number in the text is not converted. -/
  | arithmetic (cause : ArithmeticError)
  /-- A container stands inside too many others. -/
  | nestedTooDeep (container : String)
  deriving DecidableEq, Repr

/-- How many containers may stand inside each other. -/
def nestingLimit : Nat := 990

/-- The four characters that may stand between tokens. -/
def isGap (character : Char) : Bool :=
  character == ' ' || character == '\t' || character == '\n' || character == '\r'

/-- The text after the gap in front of it. -/
def skipGap (text : List Char) : List Char :=
  text.dropWhile isGap

/-- The value of one hexadecimal digit. -/
def hexValue? (character : Char) : Option Nat :=
  if '0' ≤ character ∧ character ≤ '9' then some (character.toNat - '0'.toNat)
  else if 'a' ≤ character ∧ character ≤ 'f' then some (character.toNat - 'a'.toNat + 10)
  else if 'A' ≤ character ∧ character ≤ 'F' then some (character.toNat - 'A'.toNat + 10)
  else none

/-- The value of four hexadecimal digits in front of a text. -/
def readUnit? : List Char → Option (Nat × List Char)
  | first :: second :: third :: fourth :: rest => do
      let a ← hexValue? first
      let b ← hexValue? second
      let c ← hexValue? third
      let d ← hexValue? fourth
      return (((a * 16 + b) * 16 + c) * 16 + d, rest)
  | _ => none

/-- One escaped character after its backslash. Two surrogates that belong together are one
character; one that stands alone becomes the replacement character. -/
def readEscape? : List Char → Option (Char × List Char)
  | '"' :: rest => some ('"', rest)
  | '\\' :: rest => some ('\\', rest)
  | '/' :: rest => some ('/', rest)
  | 'b' :: rest => some ('\x08', rest)
  | 'f' :: rest => some ('\x0c', rest)
  | 'n' :: rest => some ('\n', rest)
  | 'r' :: rest => some ('\r', rest)
  | 't' :: rest => some ('\t', rest)
  | 'u' :: rest => do
      let (unit, rest) ← readUnit? rest
      if 0xD800 ≤ unit ∧ unit < 0xDC00 then
        match rest with
        | '\\' :: 'u' :: second =>
            match readUnit? second with
            | some (low, after) =>
                if 0xDC00 ≤ low ∧ low < 0xE000 then
                  return (Char.ofNat (0x10000 + (unit - 0xD800) * 0x400 + (low - 0xDC00)), after)
                else return ('\uFFFD', rest)
            | none => return ('\uFFFD', rest)
        | _ => return ('\uFFFD', rest)
      else if 0xDC00 ≤ unit ∧ unit < 0xE000 then return ('\uFFFD', rest)
      else return (Char.ofNat unit, rest)
  | _ => none

/-- The rest of a string after its opening quote, with the characters read so far in reverse. -/
def readString? (fuel : Nat) (reversed : List Char) (text : List Char) :
    Option (String × List Char) :=
  match fuel, text with
  | fuel + 1, '"' :: rest =>
      let _ := fuel
      some (String.ofList reversed.reverse, rest)
  | fuel + 1, '\\' :: rest =>
      match readEscape? rest with
      | some (character, rest) => readString? fuel (character :: reversed) rest
      | none => none
  | fuel + 1, character :: rest =>
      if character.toNat < 0x20 then none else readString? fuel (character :: reversed) rest
  | _, _ => none

/-- The ASCII digits in front of a text and what follows them. -/
def takeDigits (text : List Char) : List Char × List Char :=
  (text.takeWhile Char.isDigit, text.dropWhile Char.isDigit)

/-- The digits of a fraction after its point. A point without a digit belongs to no number. -/
def readFraction (text : List Char) : List Char × List Char :=
  match text with
  | '.' :: rest =>
      match takeDigits rest with
      | ([], _) => ([], text)
      | taken => taken
  | _ => ([], text)

/-- The exponent in front of a text, if one stands there whole. -/
def readExponent (text : List Char) : Option Int × List Char :=
  let after (negative : Bool) (rest : List Char) : Option Int × List Char :=
    match takeDigits rest with
    | ([], _) => (none, text)
    | (digits, rest) =>
        let value : Int := Text.decimalValue digits
        (some (if negative then -value else value), rest)
  match text with
  | mark :: rest =>
      if mark == 'e' || mark == 'E' then
        match rest with
        | '-' :: rest => after true rest
        | '+' :: rest => after false rest
        | rest => after false rest
      else (none, text)
  | [] => (none, text)

/-- A number without its sign. An integer part of several digits does not start with zero. -/
def readMagnitude (negative : Bool) (text : List Char) :
    Except ReadFault (Json × List Char) :=
  let (whole, rest) :=
    match text with
    | '0' :: rest => (['0'], rest)
    | text => takeDigits text
  let (fraction, rest) := readFraction rest
  let (exponent, rest) := readExponent rest
  if whole.isEmpty then .error .malformed
  else if fraction.isEmpty ∧ exponent.isNone then
    match Text.integerOfDigits whole with
    | .error cause => .error (.arithmetic cause)
    | .ok magnitude =>
        let value : Int := if negative then -(magnitude : Int) else magnitude
        .ok (.number (.int value), rest)
  else
    let coefficient := Text.decimalValue (whole ++ fraction)
    let exponent := exponent.getD 0 - fraction.length
    .ok (.number (.real (Binary64.ofDecimal negative coefficient exponent)), rest)

/-- A constant word in front of a text. -/
def readWord (word : String) (value : Json) (text : List Char) :
    Except ReadFault (Json × List Char) :=
  if word.toList.isPrefixOf text then .ok (value, text.drop word.length) else .error .malformed

/-- A string after its opening quote. -/
def readText (fuel : Nat) (text : List Char) : Except ReadFault (String × List Char) :=
  match readString? fuel [] text with
  | some result => .ok result
  | none => .error .malformed

mutual

/-- One value in front of a text. Inside it, `room` containers may stand in each other. -/
def readValue (fuel room : Nat) (text : List Char) : Except ReadFault (Json × List Char) :=
  match fuel with
  | 0 => .error .malformed
  | fuel + 1 =>
      match text with
      | '"' :: rest => (readText fuel rest).map fun (value, rest) => (.string value, rest)
      | '\x7b' :: rest =>
          match room with
          | 0 => .error (.nestedTooDeep "object")
          | room + 1 =>
              match skipGap rest with
              | '\x7d' :: rest => .ok (.object [], rest)
              | rest => readEntries fuel room [] rest
      | '[' :: rest =>
          match room with
          | 0 => .error (.nestedTooDeep "array")
          | room + 1 =>
              match skipGap rest with
              | ']' :: rest => .ok (.array [], rest)
              | rest => readItems fuel room [] rest
      | 'n' :: _ => readWord "null" .null text
      | 't' :: _ => readWord "true" (.bool true) text
      | 'f' :: _ => readWord "false" (.bool false) text
      | 'N' :: _ => readWord "NaN" (.number (.real .nan)) text
      | 'I' :: _ => readWord "Infinity" (.number (.real (.infinite false))) text
      | '-' :: 'I' :: _ => readWord "-Infinity" (.number (.real (.infinite true))) text
      | '-' :: rest => readMagnitude true rest
      | text => readMagnitude false text

/-- The items of an array from one on, with those before it in reverse. -/
def readItems (fuel room : Nat) (reversed : List Json) (text : List Char) :
    Except ReadFault (Json × List Char) :=
  match fuel with
  | 0 => .error .malformed
  | fuel + 1 =>
      match readValue fuel room (skipGap text) with
      | .error fault => .error fault
      | .ok (item, rest) =>
          match skipGap rest with
          | ']' :: rest => .ok (.array (item :: reversed).reverse, rest)
          | ',' :: rest => readItems fuel room (item :: reversed) rest
          | _ => .error .malformed

/-- The entries of an object from one on, with those before it. -/
def readEntries (fuel room : Nat) (entries : Entries) (text : List Char) :
    Except ReadFault (Json × List Char) :=
  match fuel with
  | 0 => .error .malformed
  | fuel + 1 =>
      match skipGap text with
      | '"' :: rest =>
          match readText fuel rest with
          | .error fault => .error fault
          | .ok (key, rest) =>
              match skipGap rest with
              | ':' :: rest =>
                  match readValue fuel room (skipGap rest) with
                  | .error fault => .error fault
                  | .ok (value, rest) =>
                      let entries := Table.insert entries key value
                      match skipGap rest with
                      | '\x7d' :: rest => .ok (.object entries, rest)
                      | ',' :: rest => readEntries fuel room entries rest
                      | _ => .error .malformed
              | _ => .error .malformed
      | _ => .error .malformed

end

/-- The value that a whole text writes, with gaps around it. -/
def read (text : List Char) : Except ReadFault Json :=
  match readValue (2 * text.length + 2) nestingLimit (skipGap text) with
  | .error fault => .error fault
  | .ok (value, rest) => if (skipGap rest).isEmpty then .ok value else .error .malformed

end Montage.Json
