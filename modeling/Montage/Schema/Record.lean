import Montage.Schema.Scalar

/-!
# Records and lists of a document

A field may be spelled in two ways. The wire spelling is looked for first, so it wins where an
object carries both, and a fault is reported under the spelling that was found.
-/

namespace Montage.Schema

variable {α : Type}

/-- The spellings of a field. -/
structure FieldName where
  wire : String
  plain : String

/-- A field with a single spelling. -/
def FieldName.single (name : String) : FieldName :=
  ⟨name, name⟩

/-- The value of a field and the spelling under which it was found. -/
def FieldName.find? (name : FieldName) (entries : Json.Entries) : Option (String × Json) :=
  match Table.find? entries name.wire with
  | some value => some (name.wire, value)
  | none => (Table.find? entries name.plain).map fun value => (name.plain, value)

/-- A value that may be absent or null. -/
def orNull (read : Reader α) : Reader (Option α)
  | .null => .valid none
  | value => (read value).map some

/-- A field that must be there. Its absence is a fault of the wire spelling. -/
def required (name : FieldName) (read : Reader α) (entries : Json.Entries) : Checked α :=
  match name.find? entries with
  | some (found, value) => (read value).under (.key found)
  | none => (Checked.refuse .missing).under (.key name.wire)

/-- A field with a value that stands in for an absent one. -/
def defaulted (name : FieldName) (standard : α) (read : Reader α) (entries : Json.Entries) :
    Checked α :=
  match name.find? entries with
  | some (found, value) => (read value).under (.key found)
  | none => .valid standard

/-- A field that may be absent or null. -/
def optional (name : FieldName) (read : Reader α) (entries : Json.Entries) :
    Checked (Option α) :=
  defaulted name none (orNull read) entries

/-- A record: an object whose fields are checked one after another. -/
def readRecord (name : String) (fields : Json.Entries → Checked α) : Reader α
  | .object entries => fields entries
  | _ => .refuse (.notRecord name)

/-- The items of a list from a position on. -/
def readItems (read : Reader α) (position : Nat) : List Json → Checked (List α)
  | [] => .valid []
  | item :: rest =>
      List.cons <$> (read item).under (.index position) <*> readItems read (position + 1) rest

/-- A list of values. -/
def readList (read : Reader α) : Reader (List α)
  | .array items => readItems read 0 items
  | _ => .refuse .notList

end Montage.Schema
