import Montage.Command
import Montage.Progress
import Montage.Render.Studio

/-!
# Supervised renders

A supervised render starts the external renderer, turns its output into percentages and waits for
its end. If it ends with an error, a black film is rendered instead, once. The filter script is
deleted as soon as the first process has ended, and on every way out.

A supervised render is a state between two steps. Everything that others may do meanwhile, such as
cancelling, happens between steps.
-/

namespace Montage

/-- What a supervised render is to do. -/
structure RenderPlan where
  /-- The name of the renderer in reports. -/
  binaryName : String := "ffmpeg"
  primaryArguments : List String
  fallbackArguments : List String
  output : String
  scriptPath : Option String := none
  /-- The length that counts until the renderer names one. -/
  duration : Option Number := none

/-- How a process ended. -/
structure AttemptResult where
  arguments : List String
  exitCode : Int
  output : String
  deriving DecidableEq, Repr

/-- Which of the two processes of a supervised render is running. -/
inductive AttemptRole where
  /-- The render itself, whose output tells the progress. -/
  | primary (parser : ProgressParser)
  /-- The black film, after the render ended as given. -/
  | fallback (primary : AttemptResult)
  deriving DecidableEq

/-- A running process and what it has written. -/
structure Attempt where
  number : Nat
  arguments : List String
  process : Process
  written : List String := []
  role : AttemptRole
  deriving DecidableEq

/-- Where a supervised render stands between two steps. -/
inductive Supervision where
  | ready
  /-- The next piece of output is awaited. -/
  | reading (attempt : Attempt)
  /-- The client holds a percentage. -/
  | reported (attempt : Attempt)
  /-- The output is closed and the end of the process is awaited. -/
  | waiting (attempt : Attempt)
  /-- The client holds the note that the black film follows. -/
  | announced (primary : AttemptResult)
  /-- The client holds the last event. -/
  | concluded
  | finished
  deriving DecidableEq

/-- A supervised render: its plan, whether it was cancelled, and where it stands. -/
structure SupervisedRender where
  plan : RenderPlan
  cancelled : Bool := false
  phase : Supervision := .ready

/-- The text of the event that ends a cancelled render. -/
def cancelledText : String := ErrorKind.cancelled.message

/-- The report that both processes failed, with all that is known of either. -/
def RenderPlan.failureReport (plan : RenderPlan) (primary fallback : AttemptResult) : String :=
  "FFmpeg complex render failed with code " ++ toString primary.exitCode ++ "\n\n" ++
    "Complex command: " ++ commandLine plan.binaryName primary.arguments ++ "\n\n" ++
    "Complex error details:\n" ++ primary.output ++ "\n\n" ++
    "Fallback render also failed with code " ++ toString fallback.exitCode ++ "\n\n" ++
    "Fallback command: " ++ commandLine plan.binaryName fallback.arguments ++ "\n\n" ++
    "Fallback error details:\n" ++ fallback.output

/-- The note that the black film follows. -/
def fallbackNote (primary : AttemptResult) : String :=
  "Complex render failed with code " ++ toString primary.exitCode ++
    ". Trying fallback render (black video)..."

namespace Attempt

/-- Kill the process of an attempt. -/
def kill (attempt : Attempt) (studio : Studio) : Studio × Attempt :=
  (studio.record (.killed attempt.number), { attempt with process := attempt.process.kill })

/-- Kill the process once the render is cancelled. -/
def watch (attempt : Attempt) (cancelled : Bool) (studio : Studio) : Studio × Attempt :=
  if cancelled ∧ attempt.process.killed = false then attempt.kill studio else (studio, attempt)

/-- How an attempt ended. -/
def result (attempt : Attempt) : AttemptResult :=
  { arguments := attempt.arguments
    exitCode := attempt.process.code
    output := String.join attempt.written }

/-- Take a piece of output. Only the output of the render itself tells the progress. -/
def take (attempt : Attempt) (piece : String) (rest : Process) :
    Except ArithmeticError (Attempt × Option Binary64) :=
  let attempt := { attempt with process := rest, written := attempt.written ++ [piece] }
  match attempt.role with
  | .fallback _ => .ok (attempt, none)
  | .primary parser => do
      let (parser, progress) ← parser.feed piece.toList
      return ({ attempt with role := .primary parser }, progress)

end Attempt

namespace SupervisedRender

/-- Leave the render with a failure: the script is deleted on the way out. -/
def abandon (render : SupervisedRender) (studio : Studio) (failure : Failure) :
    Step SupervisedRender :=
  { studio := studio.removeScript render.plan.scriptPath
    state := { render with phase := .finished }
    signal := .failed failure }

/-- Start a process in a role. -/
def start (render : SupervisedRender) (studio : Studio) (arguments : List String)
    (role : AttemptRole) : Step SupervisedRender :=
  match studio.submit arguments with
  | (.error failure, studio) => render.abandon studio failure
  | (.ok (number, process), studio) =>
      let attempt : Attempt :=
        { number := number, arguments := arguments, process := process, role := role }
      { studio := studio, state := { render with phase := .reading attempt }, signal := .paused }

/-- Show an event to the client and stand at a phase while it holds the event. -/
def present (render : SupervisedRender) (studio : Studio) (phase : Supervision)
    (event : RenderEvent) : Step SupervisedRender :=
  { studio := studio, state := { render with phase := phase }, signal := .event event }

/-- Await the next piece of output. -/
def read (render : SupervisedRender) (studio : Studio) (attempt : Attempt) :
    Step SupervisedRender :=
  let (studio, attempt) := attempt.watch render.cancelled studio
  match attempt.process.read with
  | .silent =>
      { studio := studio, state := { render with phase := .reading attempt }, signal := .stuck }
  | .closed =>
      { studio := studio, state := { render with phase := .waiting attempt }, signal := .paused }
  | .broken reason =>
      render.abandon (attempt.kill studio).1 (.external reason)
  | .text piece rest =>
      match attempt.take piece rest with
      | .error cause => render.abandon (attempt.kill studio).1 (.arithmetic cause)
      | .ok (attempt, none) =>
          { studio := studio, state := { render with phase := .reading attempt }
            signal := .paused }
      | .ok (attempt, some progress) =>
          match RenderEvent.ofProgress progress with
          | .ok event => render.present studio (.reported attempt) event
          | .error failure => render.abandon (attempt.kill studio).1 failure

/-- Decide what follows the end of a process. A cancelled render ends as cancelled, however the
process ended. -/
def conclude (render : SupervisedRender) (studio : Studio) (role : AttemptRole)
    (result : AttemptResult) : Step SupervisedRender :=
  if render.cancelled then render.present studio .concluded (.failed cancelledText)
  else if result.exitCode = 0 then
    render.present studio .concluded (.finished render.plan.output)
  else
    match role with
    | .primary _ => render.present studio (.announced result) (.note (fallbackNote result))
    | .fallback primary =>
        render.present studio .concluded (.failed (render.plan.failureReport primary result))

/-- Await the end of a process. -/
def await (render : SupervisedRender) (studio : Studio) (attempt : Attempt) :
    Step SupervisedRender :=
  let (studio, attempt) := attempt.watch render.cancelled studio
  let result := attempt.result
  let studio := studio.record (.ended attempt.number result.exitCode)
  render.conclude (studio.removeScript render.plan.scriptPath) attempt.role result

/-- Go on to the next pause or event. -/
def resume (studio : Studio) (render : SupervisedRender) : Step SupervisedRender :=
  match render.phase with
  | .ready =>
      render.start studio render.plan.primaryArguments
        (.primary { fallbackDuration := render.plan.duration })
  | .reading attempt => render.read studio attempt
  | .reported attempt =>
      { studio := studio, state := { render with phase := .reading attempt }, signal := .paused }
  | .waiting attempt => render.await studio attempt
  | .announced primary =>
      render.start studio render.plan.fallbackArguments (.fallback primary)
  | .concluded =>
      { studio := studio.removeScript render.plan.scriptPath
        state := { render with phase := .finished }
        signal := .ended }
  | .finished => { studio := studio, state := render, signal := .ended }

/-- Give the render up. A process that has not been waited for is killed. -/
def close (studio : Studio) (render : SupervisedRender) : Studio × SupervisedRender :=
  let closed := { render with phase := .finished }
  let clean (studio : Studio) := studio.removeScript render.plan.scriptPath
  match render.phase with
  | .ready => (studio, closed)
  | .reading attempt => (clean (attempt.kill studio).1, closed)
  | .reported attempt => (clean (attempt.kill studio).1, closed)
  | .waiting attempt => (clean (attempt.kill studio).1, closed)
  | .announced _ => (clean studio, closed)
  | .concluded => (clean studio, closed)
  | .finished => (studio, closed)

/-- Ask the render to stop. -/
def cancel (render : SupervisedRender) : SupervisedRender :=
  { render with cancelled := true }

/-- A supervised render as a stream of events. -/
def producer : Producer SupervisedRender :=
  { resume := resume, close := close, cancel := cancel }

end SupervisedRender

end Montage
