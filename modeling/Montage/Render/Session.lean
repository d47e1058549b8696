import Montage.Render.Client
import Montage.Render.Stream
import Montage.Timeline.Document

/-!
# Render sessions

A session serves one client over a connection. The first message is a payload; the session then
sends the events of its render up to the one that ends it and closes the connection. When an event
cannot be sent, nothing more is sent and the render is cancelled.
-/

namespace Montage

/-- How a connection refuses to send. -/
inductive SendFault where
  | broken
  | disconnected
  deriving DecidableEq, Repr

/-- A connection to a client: what arrives on it, and which send fails. -/
structure Connection where
  frames : List Frame
  /-- The position of the send that fails, counted from one. -/
  failing : Option (Nat × SendFault) := none

/-- What a session did. -/
structure SessionReport where
  studio : Studio
  sent : List RenderEvent := []
  closed : Nat := 0
  /-- The fault of a send with which the session itself ended. -/
  failure : Option SendFault := none
  /-- The failure of reading with which the session itself ended. -/
  raised : Option Failure := none

/-- The state of a session that passes on the events of a render. -/
structure Session where
  studio : Studio
  stream : RenderStream
  watch : ClientWatch
  failing : Option Nat
  /-- How many events the session has tried to send. -/
  attempts : Nat := 0
  sent : List RenderEvent := []
  /-- Whether every event so far could be sent. -/
  connected : Bool := true

namespace Session

/-- Cancel the render once the client asks for it or has left. -/
def noticeClient (session : Session) : Session :=
  let watch := session.watch.advance session.attempts
  let stream := if watch.cancelled then session.stream.cancel else session.stream
  { session with watch := watch, stream := stream }

/-- Try to send an event, unless an earlier one could not be sent. -/
def send (session : Session) (event : RenderEvent) : Session :=
  if session.connected then
    let attempts := session.attempts + 1
    if session.failing = some attempts then
      { session with
        attempts := attempts, connected := false, stream := session.stream.cancel }
    else { session with attempts := attempts, sent := session.sent ++ [event] }
  else session

/-- Give the stream up and close the connection, if the client is still there. -/
def finish (session : Session) : SessionReport :=
  let (studio, _) := RenderStream.close session.studio session.stream
  let closes := session.connected && !session.watch.clientLeft
  { studio := studio, sent := session.sent, closed := if closes then 1 else 0 }

/-- Pass on events for a bounded number of steps, up to the one that ends the render. -/
def follow (session : Session) : Nat → SessionReport
  | 0 => session.finish
  | steps + 1 =>
      let step := RenderStream.resume session.studio session.stream
      let session := { session with studio := step.studio, stream := step.state }
      match step.signal with
      | .paused => session.follow steps
      | .event event =>
          let session := (session.send event).noticeClient
          if event.isTerminal then session.finish else session.follow steps
      | .stuck => session.finish
      | .ended => session.finish
      | .failed _ => session.finish

/-- Send one error and close the connection. -/
def refuse (connection : Connection) (studio : Studio) (reason : String) : SessionReport :=
  match connection.failing with
  | some (1, fault) => { studio := studio, failure := some fault }
  | _ => { studio := studio, sent := [.failed reason], closed := 1 }

/-- What the first message of a client asks for. -/
inductive Request where
  | render (payload : RenderPayload)
  /-- The message is no payload, and why. -/
  | invalid (reason : String)
  | nothing
  /-- Reading the message ends the session. -/
  | broken (failure : Failure)

/-- What a first message asks for. -/
def requestOf : ClientMessage → Request
  | .json document =>
      match RenderPayload.parse document with
      | .ok payload => .render payload
      | .error failure => .invalid failure.message
  | .unreadable reason => .invalid ("Invalid render payload: " ++ reason)
  | .left _ => .nothing
  | .broken failure => .broken failure

/-- Serve a client. A busy studio turns the payload away before anything is started. -/
def serve (connection : Connection) (studio : Studio) (order : RenderPayload → RenderOrder) :
    SessionReport :=
  match connection.frames with
  | [] => { studio := studio }
  | first :: rest =>
      match requestOf first.message with
      | .nothing => { studio := studio }
      | .broken failure => { studio := studio, raised := some failure }
      | .invalid reason => refuse connection studio reason
      | .render payload =>
          if studio.gate.busy then refuse connection studio ErrorKind.inProgress.message
          else
            let session : Session :=
              { studio := studio
                stream := { order := order payload }
                watch := { frames := rest }
                failing := connection.failing.map (·.1) }
            session.noticeClient.follow studio.stepBound

end Session

end Montage
