import Montage.Binary64
import Montage.Schema.Fault

/-!
# Failures and their reports

A reported error carries a code for machines, a status for the web layer and a text for people.
The table of codes says whether trying again may help and what to mend first.

A failure is anything that ends an operation early: a reported error, arithmetic without a
result, an event outside its schema, or something that happened outside.
-/

namespace Montage

/-- The kinds of reported errors. -/
inductive ErrorKind where
  | general
  | invalidInput
  | process
  | cancelled
  | inProgress
  | scriptFile
  | unexpected
  deriving DecidableEq, Repr

namespace ErrorKind

/-- The code of a kind, unless a report brings its own. -/
def code : ErrorKind → String
  | .general => "INTERNAL_ERROR"
  | .invalidInput => "INVALID_INPUT"
  | .process => "PROCESS_FAILED"
  | .cancelled => "RENDER_CANCELLED"
  | .inProgress => "RENDER_IN_PROGRESS"
  | .scriptFile => "RENDER_IO_ERROR"
  | .unexpected => "INTERNAL_ERROR"

/-- The status of the answer that a kind leads to. -/
def status : ErrorKind → Int
  | .general => 500
  | .invalidInput => 400
  | .process => 500
  | .cancelled => 409
  | .inProgress => 409
  | .scriptFile => 500
  | .unexpected => 500

/-- The text of a kind, unless a report brings its own. -/
def message : ErrorKind → String
  | .general => "An unexpected error occurred"
  | .invalidInput => "Invalid render input"
  | .process => "FFmpeg process failed"
  | .cancelled => "Render cancelled"
  | .inProgress => "A render is already in progress"
  | .scriptFile => "Render file I/O failed"
  | .unexpected => "Render process failed"

end ErrorKind

/-- An error that is reported to the client. -/
structure ReportedError where
  kind : ErrorKind
  code : String
  status : Int
  message : String
  deriving DecidableEq, Repr

namespace ReportedError

/-- An error of a kind. An absent part, an empty text and a zero status leave the part that the
kind prescribes. -/
def ofKind (kind : ErrorKind) (message : Option String := none) (code : Option String := none)
    (status : Option Int := none) : ReportedError where
  kind := kind
  code := (code.filter (· != "")).getD kind.code
  status := (status.filter (· != 0)).getD kind.status
  message := (message.filter (· != "")).getD kind.message

/-- The error of input that cannot be rendered. -/
def invalidInput (message : String) : ReportedError :=
  ofKind .invalidInput (some message)

/-- The error of a process that ended with a code. -/
def ofExitCode (exitCode : Option Int) : ReportedError :=
  ofKind .process (exitCode.map fun code => "FFmpeg exited with code " ++ toString code)

end ReportedError

/-- What is known about an error code. -/
structure ErrorSpec where
  retryable : Bool
  suggestedFix : Option String := none
  deriving DecidableEq, Repr

/-- The table of error codes. A code outside it is not retryable. -/
def errorSpec (code : String) : ErrorSpec :=
  match code with
  | "INVALID_INPUT" =>
      { retryable := false
        suggestedFix := some "Check that the timeline has visible layers with resolvable media" }
  | "PROCESS_FAILED" => { retryable := true }
  | "RENDER_CANCELLED" => { retryable := true }
  | "RENDER_IN_PROGRESS" =>
      { retryable := true, suggestedFix := some "Wait for the running render to finish" }
  | "RENDER_IO_ERROR" => { retryable := true }
  | "INTERNAL_ERROR" => { retryable := true }
  | _ => { retryable := false }

/-- The body of an answer that reports an error. -/
structure ErrorBody where
  code : String
  message : String
  spec : ErrorSpec
  deriving DecidableEq, Repr

/-- The body that reports an error, with what the table knows about its code. -/
def ReportedError.body (error : ReportedError) : ErrorBody :=
  { code := error.code, message := error.message, spec := errorSpec error.code }

/-- Anything that ends an operation early. -/
inductive Failure where
  | reported (error : ReportedError)
  | arithmetic (cause : ArithmeticError)
  /-- A list of filter stages holds something of another kind. -/
  | unknownStage (kind : String)
  /-- Something outside went wrong, such as a process that could not start, output that broke off, a
  directory that could not be made or a text that no file can hold. -/
  | external (reason : String)
  /-- An event that was about to be sent does not fit its schema. Of the report of the schema only
  the cause is kept. -/
  | invalidEvent (fault : Schema.Fault)
  /-- A document has a container, of the given kind, too deep inside others. -/
  | nestedTooDeep (container : String)
  deriving DecidableEq, Repr

namespace Failure

/-- The text of a failure. -/
def message : Failure → String
  | .reported error => error.message
  | .arithmetic cause => cause.message
  | .unknownStage kind => "Unknown filter stage: " ++ kind
  | .external reason => reason
  | .invalidEvent fault => fault.cause.message
  | .nestedTooDeep container =>
      "maximum recursion depth exceeded while decoding a JSON " ++ container ++
        " from a unicode string"

instance : Coe ArithmeticError Failure := ⟨.arithmetic⟩

/-- Arithmetic errors are failures. -/
def ofArithmetic {α : Type} : Except ArithmeticError α → Except Failure α
  | .ok value => .ok value
  | .error cause => .error (.arithmetic cause)

@[simp] theorem ofArithmetic_eq_ok {α : Type} {outcome : Except ArithmeticError α} {value : α} :
    ofArithmetic outcome = .ok value ↔ outcome = .ok value := by
  cases outcome <;> simp [ofArithmetic]

/-- The failure of input that cannot be rendered. -/
def invalidInput (message : String) : Failure :=
  .reported (.invalidInput message)

end Failure

end Montage
