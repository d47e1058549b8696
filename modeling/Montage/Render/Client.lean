import Montage.Failure
import Montage.Json

/-!
# Messages of a client

While a film is rendered the client may ask to cancel it, or leave, which cancels it too. Anything
else that the client sends is ignored. After a cancellation nothing more is read. Nor is anything
read after a message that cannot even be refused, such as bytes in place of a text.
-/

namespace Montage

/-- What arrives from a client. -/
inductive ClientMessage where
  | json (value : Json)
  /-- Something that is no JSON, and why. -/
  | unreadable (reason : String)
  | left (code : Int)
  /-- Bytes in place of a text, or JSON that is nested too deep. Reading it fails in this way, which
  no reader expects. -/
  | broken (failure : Failure)

/-- A message and how many events must have been sent before it arrives. -/
structure Frame where
  after : Nat := 0
  message : ClientMessage

/-- Holds of a request to cancel. -/
def isCancelRequest (value : Json) : Bool :=
  match value.get? "action" with
  | some (.string action) => action == "cancel"
  | _ => false

/-- A watch over the messages of a client. -/
structure ClientWatch where
  /-- The messages that have not been read. -/
  frames : List Frame
  /-- Whether the watch has ended because the render is to stop. -/
  cancelled : Bool := false
  /-- Whether the client was seen to leave. -/
  clientLeft : Bool := false
  /-- Whether the watch broke off at a message. -/
  broken : Bool := false

namespace ClientWatch

/-- Read messages that arrive after a number of events, up to the one that ends the watch. -/
def readFrames (sent : Nat) : List Frame → ClientWatch
  | [] => { frames := [] }
  | frame :: rest =>
      if frame.after ≤ sent then
        match frame.message with
        | .left _ => { frames := rest, cancelled := true, clientLeft := true }
        | .broken _ => { frames := rest, broken := true }
        | .unreadable _ => readFrames sent rest
        | .json value =>
            if isCancelRequest value then { frames := rest, cancelled := true }
            else readFrames sent rest
      else { frames := frame :: rest }

/-- Read what has arrived after a number of events. A watch that has ended reads no more. -/
def advance (watch : ClientWatch) (sent : Nat) : ClientWatch :=
  if watch.cancelled || watch.broken then watch else readFrames sent watch.frames

end ClientWatch

end Montage
