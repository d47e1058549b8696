/-!
# Arithmetic without a result

Some operations on numbers have no result, and converting an integer from or to its digits is
refused beyond a fixed length. Functions that may fail this way say so in their type.
-/

namespace Montage

/-- How many decimal digits an integer may have where it is read from a text or written to one. -/
def digitLimit : Nat := 4300

/-- The reasons an operation on numbers has no result. -/
inductive ArithmeticError where
  | nanToInteger
  | infinityToInteger
  | integerTooLarge
  | quotientTooLarge
  | divisionByZero
  /-- A text writes an integer with this many digits, which are too many. -/
  | digitsTooMany (count : Nat)
  /-- An integer has too many digits to be written. -/
  | integerTooLong
  deriving DecidableEq, Repr

namespace ArithmeticError

/-- The start of the texts about the digit limit. -/
def limitText : String :=
  "Exceeds the limit (" ++ toString digitLimit ++ " digits) for integer string conversion"

/-- The end of the texts about the digit limit. -/
def limitAdvice : String :=
  "; use sys.set_int_max_str_digits() to increase the limit"

/-- The text that a report of the error shows. -/
def message : ArithmeticError → String
  | .nanToInteger => "cannot convert float NaN to integer"
  | .infinityToInteger => "cannot convert float infinity to integer"
  | .integerTooLarge => "int too large to convert to float"
  | .quotientTooLarge => "integer division result too large for a float"
  | .divisionByZero => "float division by zero"
  | .digitsTooMany count =>
      limitText ++ ": value has " ++ toString count ++ " digits" ++ limitAdvice
  | .integerTooLong => limitText ++ limitAdvice

end ArithmeticError

/-- A computation in two parts succeeds exactly when both parts do. -/
theorem bind_eq_ok {ε α β : Type} {first : Except ε α} {next : α → Except ε β} {result : β} :
    first >>= next = .ok result ↔ ∃ value, first = .ok value ∧ next value = .ok result := by
  cases first with
  | error cause => simp [bind, Except.bind]
  | ok value => simp [bind, Except.bind]

/-- It fails exactly when its first part does, or when the other part does after it. -/
theorem bind_eq_error {ε α β : Type} {first : Except ε α} {next : α → Except ε β} {cause : ε} :
    first >>= next = .error cause ↔
      first = .error cause ∨ ∃ value, first = .ok value ∧ next value = .error cause := by
  cases first with
  | error cause => simp [bind, Except.bind]
  | ok value => simp [bind, Except.bind]

theorem mem_toOption {ε α : Type} {outcome : Except ε α} {result : α} :
    result ∈ outcome.toOption ↔ outcome = .ok result := by
  cases outcome with
  | error cause => simp [Except.toOption]
  | ok value => simp [Except.toOption]

end Montage
