import Montage.Job
import Montage.Render.Supervision

/-!
# Render streams

A render stream takes the gate, works out its job, checks it, writes the filter script and then
passes on the events of the supervised render. It ends with one event that carries an error or the
path of the film. The script is deleted and the gate left free when the client asks for what
follows that event, or gives the stream up.
-/

namespace Montage

/-- A request to render a payload, with the fresh paths that the render takes. -/
structure RenderOrder where
  workplace : Workplace
  payload : RenderPayload
  output : FilmPath
  scriptPath : String
  /-- Whether the external renderer is installed. -/
  rendererFound : Bool := true

/-- Where a render stream stands between two steps. The client holds an event in all phases but
the first and the last, and `supervising` where the supervised render pauses. -/
inductive StreamPhase where
  | ready
  /-- The gate was taken; the client holds the event that says so. -/
  | rejected
  /-- The gate is held. -/
  | greeted
  /-- The job is worked out. -/
  | prepared (job : RenderJob)
  /-- The script is written. -/
  | planned (plan : RenderPlan)
  | supervising (render : SupervisedRender)
  /-- The stream has failed; a script may have been written before. -/
  | failing (scriptPath : Option String)
  | finished

/-- A render stream: its order, whether it was cancelled, and where it stands. -/
structure RenderStream where
  order : RenderOrder
  cancelled : Bool := false
  phase : StreamPhase := .ready

/-- The text with which a failure is reported to the client. -/
def reportText : Failure → String
  | .reported error => error.message
  | failure => ErrorKind.unexpected.message ++ ": " ++ failure.message

/-- The event of a render that is turned away. -/
def rejectionEvent : RenderEvent :=
  .failed ErrorKind.inProgress.message

namespace RenderStream

/-- Show an event to the client and stand at a phase while it holds the event. -/
def present (stream : RenderStream) (studio : Studio) (phase : StreamPhase) (event : RenderEvent) :
    Step RenderStream :=
  { studio := studio, state := { stream with phase := phase }, signal := .event event }

/-- Report a failure to the client. -/
def fail (stream : RenderStream) (studio : Studio) (scriptPath : Option String)
    (failure : Failure) : Step RenderStream :=
  stream.present studio (.failing scriptPath) (.failed (reportText failure))

/-- Leave: delete the script and leave the gate free. -/
def leave (studio : Studio) (scriptPath : Option String) : Studio :=
  (studio.removeScript scriptPath).releaseGate

/-- The end of a stream that holds the gate. -/
def finish (stream : RenderStream) (studio : Studio) (scriptPath : Option String) :
    Step RenderStream :=
  { studio := leave studio scriptPath
    state := { stream with phase := .finished }
    signal := .ended }

/-- Take the gate, or be turned away. -/
def enter (stream : RenderStream) (studio : Studio) : Step RenderStream :=
  match studio.gate.acquire with
  | (false, _) => stream.present studio .rejected rejectionEvent
  | (true, gate) =>
      stream.present { studio with gate := gate } .greeted
        { progress := some 0, message := some "Starting render process..." }

/-- Work out the job. -/
def prepare (stream : RenderStream) (studio : Studio) : Step RenderStream :=
  match RenderJob.prepare stream.order.workplace stream.order.payload stream.order.output with
  | .error failure => stream.fail studio none failure
  | .ok job =>
      stream.present studio (.prepared job)
        (.note ("Found " ++ toString job.inputs.files.length ++ " input files"))

/-- The plan of a job whose script is at a path. -/
def planOf (order : RenderOrder) (job : RenderJob) (scriptPath : String) :
    Except Failure RenderPlan := do
  let settings := order.workplace.settings
  let primary ← job.renderArguments settings scriptPath
  return {
    binaryName := settings.ffmpegPath
    primaryArguments := primary
    fallbackArguments := job.fallbackArguments
    output := job.output
    scriptPath := some scriptPath
    duration := some (.real job.totalDuration) }

/-- Check the job before anything is written. -/
def check (order : RenderOrder) (job : RenderJob) : Except Failure String := do
  validateRender job.inputs.files job.graph.entries
  if order.rendererFound then job.graph.script
  else
    throw <| Failure.invalidInput
      "FFmpeg not available. Please check the FFmpeg installation."

/-- Check the job and write its script. -/
def plan (stream : RenderStream) (studio : Studio) (job : RenderJob) : Step RenderStream :=
  match check stream.order job with
  | .error failure => stream.fail studio none failure
  | .ok script =>
      let path := stream.order.scriptPath
      match studio.writeScript path script with
      | (.error failure, studio) => stream.fail studio none failure
      | (.ok (), studio) =>
          match planOf stream.order job path with
          | .error failure => stream.fail studio (some path) failure
          | .ok plan =>
              stream.present studio (.planned plan)
                (.note ("Filter complex created with " ++ toString job.graph.stages.length ++
                  " filters"))

/-- Go on with the supervised render and pass on what it shows. -/
def supervise (stream : RenderStream) (studio : Studio) (render : SupervisedRender) :
    Step RenderStream :=
  let step := SupervisedRender.resume studio { render with cancelled := stream.cancelled }
  match step.signal with
  | .ended => stream.finish step.studio render.plan.scriptPath
  | .failed failure => stream.fail step.studio render.plan.scriptPath failure
  | signal =>
      { studio := step.studio
        state := { stream with phase := .supervising step.state }
        signal := signal }

/-- Go on to the next pause or event. -/
def resume (studio : Studio) (stream : RenderStream) : Step RenderStream :=
  match stream.phase with
  | .ready => stream.enter studio
  | .rejected =>
      { studio := studio, state := { stream with phase := .finished }, signal := .ended }
  | .greeted => stream.prepare studio
  | .prepared job => stream.plan studio job
  | .planned plan => stream.supervise studio { plan := plan }
  | .supervising render => stream.supervise studio render
  | .failing scriptPath => stream.finish studio scriptPath
  | .finished => { studio := studio, state := stream, signal := .ended }

/-- Give the stream up and undo what it holds. -/
def close (studio : Studio) (stream : RenderStream) : Studio × RenderStream :=
  let closed := { stream with phase := .finished }
  match stream.phase with
  | .ready => (studio, closed)
  | .rejected => (studio, closed)
  | .greeted => (leave studio none, closed)
  | .prepared _ => (leave studio none, closed)
  | .planned plan => (leave studio plan.scriptPath, closed)
  | .supervising render =>
      (leave (SupervisedRender.close studio render).1 render.plan.scriptPath, closed)
  | .failing scriptPath => (leave studio scriptPath, closed)
  | .finished => (studio, closed)

/-- Ask the stream to stop. -/
def cancel (stream : RenderStream) : RenderStream :=
  { stream with cancelled := true }

/-- A render as a stream of events. -/
def producer : Producer RenderStream :=
  { resume := resume, close := close, cancel := cancel }

end RenderStream

end Montage
