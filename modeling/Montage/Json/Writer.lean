import Montage.Json

/-!
# Writing JSON text

The writer escapes everything outside ASCII, as UTF-16 units in four hexadecimal digits, so the
text survives any encoding. What stands between the parts of a list or an entry is a parameter.
-/

namespace Montage.Json

/-- What a writer puts between items and after a key. -/
structure Spacing where
  item : String
  key : String

/-- No space at all. -/
def compact : Spacing := ⟨",", ":"⟩

/-- One space after each mark. -/
def spaced : Spacing := ⟨", ", ": "⟩

/-- A UTF-16 unit as an escape. -/
def unitEscape (unit : Nat) : List Char :=
  let digits := Nat.toDigits 16 unit
  "\\u".toList ++ List.replicate (4 - digits.length) '0' ++ digits

/-- One character inside a string. -/
def escapeChar (character : Char) : List Char :=
  let code := character.toNat
  if character = '"' then "\\\"".toList
  else if character = '\\' then "\\\\".toList
  else if character = '\n' then "\\n".toList
  else if character = '\r' then "\\r".toList
  else if character = '\t' then "\\t".toList
  else if character = '\x08' then "\\b".toList
  else if character = '\x0c' then "\\f".toList
  else if 0x20 ≤ code ∧ code ≤ 0x7E then [character]
  else if code < 0x10000 then unitEscape code
  else
    unitEscape (0xD800 + (code - 0x10000) / 0x400) ++
      unitEscape (0xDC00 + (code - 0x10000) % 0x400)

/-- A string with its quotes. -/
def quoted (text : String) : String :=
  "\"" ++ String.ofList (text.toList.flatMap escapeChar) ++ "\""

/-- A number. The values outside JSON have names of their own. -/
def numberText : Number → String
  | .real .nan => "NaN"
  | .real (.infinite negative) => if negative then "-Infinity" else "Infinity"
  | other => String.ofList other.text

mutual

/-- The text of a value. -/
def write (spacing : Spacing) : Json → String
  | .null => "null"
  | .bool value => if value then "true" else "false"
  | .number value => numberText value
  | .string value => quoted value
  | .array items => "[" ++ spacing.item.intercalate (writeItems spacing items) ++ "]"
  | .object entries =>
      "\x7b" ++ spacing.item.intercalate (writeEntries spacing entries) ++ "\x7d"

/-- The texts of the items of an array. -/
def writeItems (spacing : Spacing) : List Json → List String
  | [] => []
  | item :: rest => write spacing item :: writeItems spacing rest

/-- The texts of the entries of an object. -/
def writeEntries (spacing : Spacing) : List (String × Json) → List String
  | [] => []
  | (key, value) :: rest =>
      (quoted key ++ spacing.key ++ write spacing value) :: writeEntries spacing rest

end

end Montage.Json
