import Montage.Event
import Montage.Render.Gate
import Montage.Render.Process
import Montage.Render.ScriptDirectory
import Montage.Table

/-!
# The studio

The studio is what renders share: the gate, the directory of filter scripts and the means to start
processes. A journal records in order everything that a render does to it.
-/

namespace Montage

/-- Something that a render does to the studio. Processes are numbered in the order of their
start. -/
inductive Effect where
  /-- A process was asked for, while the script that its arguments name had this text. -/
  | submitted (arguments : List String) (script : Option String)
  | started (process : Nat)
  | killed (process : Nat)
  /-- A process was waited for and had ended with a code. -/
  | ended (process : Nat) (code : Int)
  | scriptWritten (path : String)
  /-- A write failed when its file was there. Only the writer knew the path of the file. -/
  | scriptAbandoned (path : String)
  | scriptRemoved (path : String)
  /-- A deletion failed, and the file is still there. -/
  | scriptKept (path : String)
  deriving DecidableEq, Repr

/-- What renders share. -/
structure Studio where
  gate : RenderGate := {}
  scripts : ScriptDirectory := {}
  /-- How the next attempts to start a process turn out. -/
  launches : List Launch := []
  journal : List Effect := []
  deriving DecidableEq, Repr

namespace Studio

/-- Record an effect. -/
def record (studio : Studio) (effect : Effect) : Studio :=
  { studio with journal := studio.journal ++ [effect] }

/-- How many processes have been started. -/
def startedCount (studio : Studio) : Nat :=
  (studio.journal.filter fun effect => effect matches .started _).length

/-- How often a process was killed. -/
def killCount (studio : Studio) (process : Nat) : Nat :=
  studio.journal.count (.killed process)

/-- The path after the option that names the filter script. -/
def scriptPath? : List String → Option String
  | "-filter_complex_script" :: path :: _ => some path
  | _ :: rest => scriptPath? rest
  | [] => none

/-- Ask for a process. Where nothing is known of how that turns out, it is refused. -/
def submit (studio : Studio) (arguments : List String) : Except Failure (Nat × Process) × Studio :=
  let script := (scriptPath? arguments).bind studio.scripts.files.find?
  let asked := studio.record (.submitted arguments script)
  match studio.launches with
  | [] => (.error (.external "no process"), asked)
  | .refused reason :: rest => (.error (.external reason), { asked with launches := rest })
  | .started process :: rest =>
      let number := studio.startedCount
      (.ok (number, process), { asked with launches := rest }.record (.started number))

/-- Write a filter script. -/
def writeScript (studio : Studio) (path script : String) : Except Failure Unit × Studio :=
  let after := { studio with scripts := (studio.scripts.write path script).2 }
  match studio.scripts.outcome script with
  | .written => (.ok (), after.record (.scriptWritten path))
  | .refused failure => (.error failure, after)
  | .abandoned failure _ => (.error failure, after.record (.scriptAbandoned path))

/-- Delete a filter script, if it is there. -/
def removeScript (studio : Studio) (path : Option String) : Studio :=
  match path with
  | none => studio
  | some path =>
      if studio.scripts.files.has path then
        let scripts := studio.scripts.remove (some path)
        let effect := if scripts.files.has path then Effect.scriptKept path else .scriptRemoved path
        { studio with scripts := scripts }.record effect
      else studio

/-- Leave the gate free. -/
def releaseGate (studio : Studio) : Studio :=
  { studio with gate := studio.gate.release }

end Studio

/-! ## Streams of events -/

/-- What a step of a stream shows to the outside. -/
inductive Signal where
  /-- The stream pauses for others and goes on by itself. -/
  | paused
  /-- The stream waits for something that only the outside can do. -/
  | stuck
  | event (event : RenderEvent)
  | ended
  | failed (failure : Failure)
  deriving DecidableEq

/-- The outcome of one step: the studio and the state of the stream after it, and its signal. -/
structure Step (σ : Type) where
  studio : Studio
  state : σ
  signal : Signal

/-- A stream of render events that works on the studio step by step. -/
structure Producer (σ : Type) where
  /-- Go on to the next pause or event. -/
  resume : Studio → σ → Step σ
  /-- Give the stream up and undo what it holds. -/
  close : Studio → σ → Studio × σ
  /-- Ask the stream to stop; it notices at its next pause. -/
  cancel : σ → σ

/-- How a client reads a stream: it may cancel, or give up, after so many events. -/
structure Consumer where
  cancelAfter : Option Nat := none
  closeAfter : Option Nat := none
  deriving DecidableEq, Repr

/-- What a client has received. -/
structure Received (σ : Type) where
  studio : Studio
  state : σ
  events : List RenderEvent := []
  failure : Option Failure := none

namespace Producer

variable {σ : Type}

/-- Cancel a stream where the client cancels after this many events. -/
def cancelAt (producer : Producer σ) (consumer : Consumer) (count : Nat) (state : σ) : σ :=
  if consumer.cancelAfter = some count then producer.cancel state else state

/-- Read a stream for a bounded number of steps, after a number of events. -/
def readFrom (producer : Producer σ) (consumer : Consumer) (count : Nat) (studio : Studio)
    (state : σ) : Nat → Received σ
  | 0 => { studio := studio, state := state }
  | steps + 1 =>
      if consumer.closeAfter = some count then
        let (studio, state) := producer.close studio state
        { studio := studio, state := state }
      else
        let step := producer.resume studio state
        match step.signal with
        | .paused => producer.readFrom consumer count step.studio step.state steps
        | .stuck => { studio := step.studio, state := step.state }
        | .ended => { studio := step.studio, state := step.state }
        | .failed failure =>
            { studio := step.studio, state := step.state, failure := some failure }
        | .event event =>
            let state := producer.cancelAt consumer (count + 1) step.state
            let rest := producer.readFrom consumer (count + 1) step.studio state steps
            { rest with events := event :: rest.events }

end Producer

/-- A bound for the steps that a stream of a studio can take: two for each piece of output, and a
few for each process and for the stream itself. -/
def Studio.stepBound (studio : Studio) : Nat :=
  let cost : Launch → Nat
    | .refused _ => 4
    | .started process => 2 * process.chunks.length + 8
  studio.launches.foldr (fun launch total => cost launch + total) 32

/-- Read a stream from its start. -/
def Producer.read {σ : Type} (producer : Producer σ) (consumer : Consumer) (studio : Studio)
    (state : σ) : Received σ :=
  producer.readFrom consumer 0 studio (producer.cancelAt consumer 0 state) studio.stepBound

end Montage
