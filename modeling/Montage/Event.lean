import Montage.Failure
import Montage.Schema.Record

/-!
# Render events

A render tells its client what happens in a stream of events. An event with an error or with the
path of the finished film ends the stream.
-/

namespace Montage

open Schema

/-- One message about a render. -/
structure RenderEvent where
  /-- How much of the film is done, in percent. -/
  progress : Option Binary64 := none
  message : Option String := none
  error : Option String := none
  filePath : Option String := none
  deriving DecidableEq

namespace RenderEvent

/-- Nothing follows an event with an error or a finished film. -/
def isTerminal (event : RenderEvent) : Bool :=
  event.error.isSome || event.filePath.isSome

/-- An event with a message for people. -/
def note (message : String) : RenderEvent := { message := some message }

/-- The event that ends a render with an error. -/
def failed (error : String) : RenderEvent := { error := some error }

/-- The event that ends a render with a film. -/
def finished (filePath : String) : RenderEvent := { filePath := some filePath }

/-- The cause for which a percentage is refused. The value that is no number fails the upper
bound. -/
def progressCause? (progress : Binary64) : Option Cause :=
  if ¬ progress ≤ 100 then some .aboveHundred
  else if ¬ (0 : Binary64) ≤ progress then some .belowZero
  else none

/-- An event that reports a percentage. -/
def ofProgress (progress : Binary64) : Except Failure RenderEvent :=
  match progressCause? progress with
  | none => .ok { progress := some progress }
  | some cause => .error (.invalidEvent ⟨[.key "progress"], cause⟩)

/-- A percentage in a document. -/
def readProgress : Reader Binary64 := fun document =>
  (readNumber document).andThen fun progress =>
    match progressCause? progress with
    | none => .valid progress
    | some cause => .refuse cause

/-- An event in a document. -/
def read : Reader RenderEvent :=
  readRecord "RenderEvent" fun entries =>
    RenderEvent.mk
      <$> optional (.single "progress") readProgress entries
      <*> optional (.single "message") readString entries
      <*> optional (.single "error") readString entries
      <*> optional ⟨"filePath", "file_path"⟩ readString entries

/-- The event as it is sent: the fields that are set, under their wire spelling. -/
def wire (event : RenderEvent) : Json.Entries :=
  let progress := event.progress.map fun value => ("progress", Json.number (.real value))
  let message := event.message.map fun text => ("message", Json.string text)
  let error := event.error.map fun text => ("error", Json.string text)
  let filePath := event.filePath.map fun text => ("filePath", Json.string text)
  [progress, message, error, filePath].filterMap id

end RenderEvent

end Montage
