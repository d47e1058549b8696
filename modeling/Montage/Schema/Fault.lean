/-!
# Faults of a document

A fault is one place of a document that does not fit its schema. It says where the place is and
why the value there was refused. A check collects all faults, in the order of the fields.
-/

namespace Montage.Schema

/-- One step from a value to a part of it. -/
inductive PathStep where
  | key (name : String)
  | index (position : Nat)
  deriving DecidableEq, Repr

/-- The text of a step. -/
def PathStep.text : PathStep → String
  | .key name => name
  | .index position => toString position

/-- Why a value was refused. -/
inductive Cause where
  | missing
  | notString
  | notNumber
  | unreadableNumber
  | notInteger
  | unreadableInteger
  | oversizedInteger
  | fractionalInteger
  | unboundedInteger
  | notBoolean
  | unreadableBoolean
  | notChoice (choices : List String)
  | notList
  | notRecord (name : String)
  | belowZero
  | aboveHundred
  deriving DecidableEq, Repr

/-- Choices as a sentence names them: commas between them and a word before the last. -/
def choiceText : List String → String
  | [] => ""
  | [last] => "'" ++ last ++ "'"
  | [first, last] => "'" ++ first ++ "' or '" ++ last ++ "'"
  | first :: rest => "'" ++ first ++ "', " ++ choiceText rest

namespace Cause

/-- The short name of a cause. -/
def kind : Cause → String
  | .missing => "missing"
  | .notString => "string_type"
  | .notNumber => "float_type"
  | .unreadableNumber => "float_parsing"
  | .notInteger => "int_type"
  | .unreadableInteger => "int_parsing"
  | .oversizedInteger => "int_parsing_size"
  | .fractionalInteger => "int_from_float"
  | .unboundedInteger => "finite_number"
  | .notBoolean => "bool_type"
  | .unreadableBoolean => "bool_parsing"
  | .notChoice _ => "literal_error"
  | .notList => "list_type"
  | .notRecord _ => "model_type"
  | .belowZero => "greater_than_equal"
  | .aboveHundred => "less_than_equal"

/-- The sentence that explains a cause. -/
def message : Cause → String
  | .missing => "Field required"
  | .notString => "Input should be a valid string"
  | .notNumber => "Input should be a valid number"
  | .unreadableNumber =>
      "Input should be a valid number, unable to parse string as a number"
  | .notInteger => "Input should be a valid integer"
  | .unreadableInteger =>
      "Input should be a valid integer, unable to parse string as an integer"
  | .oversizedInteger =>
      "Unable to parse input string as an integer, exceeded maximum size"
  | .fractionalInteger =>
      "Input should be a valid integer, got a number with a fractional part"
  | .unboundedInteger => "Input should be a finite number"
  | .notBoolean => "Input should be a valid boolean"
  | .unreadableBoolean => "Input should be a valid boolean, unable to interpret input"
  | .notChoice choices => "Input should be " ++ choiceText choices
  | .notList => "Input should be a valid list"
  | .notRecord name => "Input should be a valid dictionary or instance of " ++ name
  | .belowZero => "Input should be greater than or equal to 0"
  | .aboveHundred => "Input should be less than or equal to 100"

end Cause

/-- A place of a document and why the value there was refused. -/
structure Fault where
  path : List PathStep
  cause : Cause
  deriving DecidableEq, Repr

/-- The fault as seen from one step further out. -/
def Fault.under (step : PathStep) (fault : Fault) : Fault :=
  { fault with path := step :: fault.path }

/-- The outcome of a check: a value, or the faults that were found. -/
inductive Checked (α : Type) where
  | valid (value : α)
  | invalid (faults : List Fault)

namespace Checked

variable {α β : Type}

/-- Refuse a value where it stands. -/
def refuse (cause : Cause) : Checked α :=
  .invalid [⟨[], cause⟩]

/-- Change the value of a successful check. -/
def map (change : α → β) : Checked α → Checked β
  | .valid value => .valid (change value)
  | .invalid faults => .invalid faults

/-- Combine two independent checks. The faults of the first come before those of the second. -/
def both (first : Checked (α → β)) (second : Checked α) : Checked β :=
  match first, second with
  | .valid change, .valid value => .valid (change value)
  | .valid _, .invalid faults => .invalid faults
  | .invalid faults, .valid _ => .invalid faults
  | .invalid faults, .invalid more => .invalid (faults ++ more)

instance : Applicative Checked where
  pure := .valid
  map := map
  seq first second := both first (second ())

/-- Report the faults of a part as faults of the whole. -/
def under (step : PathStep) : Checked α → Checked α
  | .valid value => .valid value
  | .invalid faults => .invalid (faults.map (Fault.under step))

/-- Continue with a further check of the value. -/
def andThen (first : Checked α) (next : α → Checked β) : Checked β :=
  match first with
  | .valid value => next value
  | .invalid faults => .invalid faults

end Checked

end Montage.Schema
