import Montage.Number
import Montage.Table

/-!
# JSON values

A value keeps the order of the keys of an object. The text form is read in `Montage.Json.Reader`
and written in `Montage.Json.Writer`.
-/

namespace Montage

/-- A JSON value. -/
inductive Json where
  | null
  | bool (value : Bool)
  | number (value : Number)
  | string (value : String)
  | array (items : List Json)
  | object (entries : List (String × Json))

namespace Json

instance : Inhabited Json := ⟨.null⟩

/-- Entries of an object by key. -/
abbrev Entries := Table Json

/-- The entries of an object; other values have none. -/
def entries : Json → Entries
  | .object entries => entries
  | _ => []

/-- The value of a key of an object. -/
def get? (value : Json) (key : String) : Option Json :=
  Table.find? value.entries key

/-- The items of an array; other values have none. -/
def items : Json → List Json
  | .array items => items
  | _ => []

/-- The text of a string. -/
def text? : Json → Option String
  | .string text => some text
  | _ => none

/-- The value of a whole number. -/
def integer? : Json → Option Int
  | .number (.int value) => some value
  | _ => none

/-- The truth value that a value is. -/
def truth? : Json → Option Bool
  | .bool value => some value
  | _ => none

/-- The document of a value that may be absent. -/
def ofOption {α : Type} (document : α → Json) : Option α → Json
  | some value => document value
  | none => .null

/-- The document of a whole number. -/
def ofInt (value : Int) : Json :=
  .number (.int value)

/-- The document of a number. -/
def ofBinary64 (value : Binary64) : Json :=
  .number (.real value)

/-- The document of a value that is one of several words. -/
def ofChoice {α : Type} [BEq α] (choices : List (String × α)) (value : α) : Json :=
  ofOption (fun choice => .string choice.1) (choices.find? (·.2 == value))

end Json

end Montage
