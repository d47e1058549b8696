import Montage.Json.Writer
import Montage.Render.Stream

/-!
# Renders over HTTP

A render is answered with a stream of lines, one event in JSON each. Finished films are served by
name from the output directory; a name that leads elsewhere is refused.
-/

namespace Montage

/-- The media type of a stream of events. -/
def eventMediaType : String := "application/x-ndjson"

/-- The line of an event. -/
def eventLine (event : RenderEvent) : String :=
  (Json.object event.wire).write Json.spaced ++ "\n"

/-- The answer to a request for a render. -/
inductive RenderAnswer where
  | rejected (error : ReportedError)
  | lines (content : List String)

/-- Answer a request for a render. A busy studio turns it away before the stream starts. -/
def answerRender (order : RenderOrder) (studio : Studio) : RenderAnswer × Studio :=
  if studio.gate.busy then (.rejected (.ofKind .inProgress), studio)
  else
    let received := RenderStream.producer.read {} studio { order := order }
    (.lines (received.events.map eventLine), received.studio)

/-- The answer to a request for a finished film. -/
inductive OutputAnswer where
  | file (path name : String)
  | refused (status : Nat) (detail : String)
  deriving DecidableEq, Repr

/-- The media type of a finished film. -/
def filmMediaType : String := "video/mp4"

/-- Answer a request for a finished film by name. -/
def answerOutput (directory name : String) (isFile : String → Bool) : OutputAnswer :=
  if name = "." ∨ name = ".." ∨ '/' ∈ name.toList then .refused 400 "Invalid file name"
  else
    let path := joinPath directory name
    if isFile path then .file path name else .refused 404 ("File not found: " ++ name)

end Montage
