import Montage.Proofs.Command
import Montage.Proofs.Render.Supervision
import Montage.Render.Stream

/-!
# Steps and runs of render streams

All that a step of a render stream can do, and the states that a client can bring a stream to. A
client asks for the next event again and again, and anybody may cancel between two steps.
-/

namespace Montage

/-! ## Runs -/

/-- The event that a signal carries, if any. -/
def Signal.events : Signal → List RenderEvent
  | .event shown => [shown]
  | _ => []

@[simp] theorem Signal.events_event (shown : RenderEvent) :
    (Signal.event shown).events = [shown] := rfl

@[simp] theorem Signal.events_paused : Signal.paused.events = [] := rfl

@[simp] theorem Signal.events_stuck : Signal.stuck.events = [] := rfl

@[simp] theorem Signal.events_ended : Signal.ended.events = [] := rfl

/-- What a stream can come to, with the events that it has shown on the way. The stream may be
cancelled at every moment at which it does not work. -/
inductive Producer.Reaches {σ : Type} (producer : Producer σ) (studio : Studio) (state : σ) :
    List RenderEvent → Studio → σ → Prop where
  | start : Reaches producer studio state [] studio state
  | cancel {events : List RenderEvent} {after : Studio} {now : σ}
      (reached : Reaches producer studio state events after now) :
      Reaches producer studio state events after (producer.cancel now)
  | resume {events : List RenderEvent} {after : Studio} {now : σ}
      (reached : Reaches producer studio state events after now) :
      Reaches producer studio state (events ++ (producer.resume after now).signal.events)
        (producer.resume after now).studio (producer.resume after now).state

/-- What holds at the start and is kept by cancelling and by every step holds wherever a stream
can come to. -/
theorem Producer.Reaches.invariant {σ : Type} {producer : Producer σ} {studio after : Studio}
    {state now : σ} {events : List RenderEvent}
    (reached : producer.Reaches studio state events after now)
    (holds : List RenderEvent → Studio → σ → Prop) (initial : holds [] studio state)
    (cancelled : ∀ events after now, holds events after now →
      holds events after (producer.cancel now))
    (resumed : ∀ events after now, holds events after now →
      holds (events ++ (producer.resume after now).signal.events)
        (producer.resume after now).studio (producer.resume after now).state) :
    holds events after now := by
  induction reached with
  | start => exact initial
  | cancel reached ih => exact cancelled _ _ _ ih
  | resume reached ih => exact resumed _ _ _ ih

theorem Producer.Reaches.step {σ : Type} {producer : Producer σ} {studio after : Studio}
    {state now : σ} {events : List RenderEvent} {step : Step σ}
    (reached : producer.Reaches studio state events after now)
    (made : producer.resume after now = step) :
    producer.Reaches studio state (events ++ step.signal.events) step.studio step.state :=
  made ▸ reached.resume

theorem Producer.Reaches.trans {σ : Type} {producer : Producer σ} {studio after last : Studio}
    {state now next : σ} {events more : List RenderEvent}
    (first : producer.Reaches studio state events after now)
    (second : producer.Reaches after now more last next) :
    producer.Reaches studio state (events ++ more) last next := by
  induction second with
  | start =>
      rw [List.append_nil]
      exact first
  | cancel reached ih => exact ih.cancel
  | resume reached ih =>
      rw [← List.append_assoc]
      exact ih.resume

/-- Something that happens to a stream that does not work. -/
inductive Turn where
  | resume
  | cancel

/-- What a stream comes to by a list of turns, with the events that it shows on the way. -/
def Producer.play {σ : Type} (producer : Producer σ) (studio : Studio) (state : σ) :
    List Turn → List RenderEvent × Studio × σ
  | [] => ([], studio, state)
  | .cancel :: rest => producer.play studio (producer.cancel state) rest
  | .resume :: rest =>
      let step := producer.resume studio state
      let later := producer.play step.studio step.state rest
      (step.signal.events ++ later.1, later.2)

theorem Producer.reaches_play {σ : Type} (producer : Producer σ) (studio : Studio) (state : σ)
    (turns : List Turn) :
    producer.Reaches studio state (producer.play studio state turns).1
      (producer.play studio state turns).2.1 (producer.play studio state turns).2.2 := by
  induction turns generalizing studio state with
  | nil => exact .start
  | cons turn rest ih =>
      cases turn with
      | cancel => exact (Reaches.cancel .start).trans (ih studio (producer.cancel state))
      | resume => exact (Reaches.resume .start).trans (ih _ _)

namespace RenderStream

/-! ## Plans -/

/-- Every job has a plan. -/
theorem planOf_eq_ok (order : RenderOrder) (job : RenderJob) (path : String) :
    ∃ arguments,
      job.renderArguments order.workplace.settings path = .ok arguments ∧
        planOf order job path = .ok
          { binaryName := order.workplace.settings.ffmpegPath
            primaryArguments := arguments
            fallbackArguments := job.fallbackArguments
            output := job.output
            scriptPath := some path
            duration := some (.real job.totalDuration) } := by
  obtain ⟨arguments, rendered⟩ := renderArguments_real order.workplace.settings job.inputs.files
    job.graph.outputs path job.output job.totalDuration
  have rendered : job.renderArguments order.workplace.settings path = .ok arguments :=
    Failure.ofArithmetic_eq_ok.mpr rendered
  refine ⟨arguments, rendered, ?_⟩
  rw [planOf, rendered]
  rfl

/-! ## Steps -/

/-- The supervised render that a stream goes on with. It sees whether the stream is cancelled. -/
inductive Supervises (stream : RenderStream) : SupervisedRender → Prop where
  | first {plan : RenderPlan} (phase : stream.phase = .planned plan) :
      Supervises stream { plan := plan, cancelled := stream.cancelled }
  | next {render : SupervisedRender} (phase : stream.phase = .supervising render) :
      Supervises stream { render with cancelled := stream.cancelled }

/-- What a step of a render stream can do. -/
inductive Move (studio : Studio) (stream : RenderStream) : Step RenderStream → Prop where
  | rejected (phase : stream.phase = .ready) (busy : studio.gate.busy = true) :
      Move studio stream (stream.present studio .rejected rejectionEvent)
  | entered (phase : stream.phase = .ready) (free : studio.gate.busy = false) :
      Move studio stream
        (stream.present { studio with gate := { busy := true } } .greeted
          { progress := some 0, message := some "Starting render process..." })
  | turned (phase : stream.phase = .rejected) :
      Move studio stream
        { studio := studio, state := { stream with phase := .finished }, signal := .ended }
  | unprepared {failure : Failure} (phase : stream.phase = .greeted)
      (prepared : RenderJob.prepare stream.order.workplace stream.order.payload
        stream.order.output = .error failure) :
      Move studio stream (stream.fail studio none failure)
  | prepared {job : RenderJob} (phase : stream.phase = .greeted)
      (prepared : RenderJob.prepare stream.order.workplace stream.order.payload
        stream.order.output = .ok job) :
      Move studio stream
        (stream.present studio (.prepared job)
          (.note ("Found " ++ toString job.inputs.files.length ++ " input files")))
  | unchecked {job : RenderJob} {failure : Failure} (phase : stream.phase = .prepared job)
      (checked : check stream.order job = .error failure) :
      Move studio stream (stream.fail studio none failure)
  | unwritten {job : RenderJob} {script : String} {failure : Failure}
      (phase : stream.phase = .prepared job) (checked : check stream.order job = .ok script)
      (written : (studio.writeScript stream.order.scriptPath script).1 = .error failure) :
      Move studio stream
        (stream.fail (studio.writeScript stream.order.scriptPath script).2 none failure)
  | planned {job : RenderJob} {script : String} {plan : RenderPlan}
      (phase : stream.phase = .prepared job) (checked : check stream.order job = .ok script)
      (written : (studio.writeScript stream.order.scriptPath script).1 = .ok ())
      (planned : planOf stream.order job stream.order.scriptPath = .ok plan) :
      Move studio stream
        (stream.present (studio.writeScript stream.order.scriptPath script).2 (.planned plan)
          (.note ("Filter complex created with " ++ toString job.graph.stages.length ++
            " filters")))
  | ended {render : SupervisedRender} (supervises : stream.Supervises render)
      (signal : (SupervisedRender.resume studio render).signal = .ended) :
      Move studio stream
        (stream.finish (SupervisedRender.resume studio render).studio render.plan.scriptPath)
  | broken {render : SupervisedRender} {failure : Failure}
      (supervises : stream.Supervises render)
      (signal : (SupervisedRender.resume studio render).signal = .failed failure) :
      Move studio stream
        (stream.fail (SupervisedRender.resume studio render).studio render.plan.scriptPath failure)
  | passed {render : SupervisedRender} (supervises : stream.Supervises render)
      (running : (SupervisedRender.resume studio render).signal ≠ .ended)
      (intact : ∀ failure, (SupervisedRender.resume studio render).signal ≠ .failed failure) :
      Move studio stream
        { studio := (SupervisedRender.resume studio render).studio
          state :=
            { stream with phase := .supervising (SupervisedRender.resume studio render).state }
          signal := (SupervisedRender.resume studio render).signal }
  | left {path : Option String} (phase : stream.phase = .failing path) :
      Move studio stream (stream.finish studio path)
  | idle (phase : stream.phase = .finished) :
      Move studio stream { studio := studio, state := stream, signal := .ended }

variable {studio : Studio} {stream : RenderStream}

theorem move_of_enter (phase : stream.phase = .ready) :
    Move studio stream (stream.enter studio) := by
  simp only [enter, RenderGate.acquire]
  cases busy : studio.gate.busy with
  | true => exact .rejected phase busy
  | false => exact .entered phase busy

theorem move_of_prepare (phase : stream.phase = .greeted) :
    Move studio stream (stream.prepare studio) := by
  simp only [prepare]
  split
  next refused => exact .unprepared phase refused
  next prepared => exact .prepared phase prepared

theorem move_of_plan {job : RenderJob} (phase : stream.phase = .prepared job) :
    Move studio stream (stream.plan studio job) := by
  simp only [plan]
  split
  next refused => exact .unchecked phase refused
  next script checked =>
    split
    next failure after written =>
      have unwritten : Move studio stream _ :=
        .unwritten phase checked (congrArg Prod.fst written)
      rwa [written] at unwritten
    next after written =>
      -- A plan that failed here would leave its script behind; none does.
      obtain ⟨arguments, -, planned⟩ := planOf_eq_ok stream.order job stream.order.scriptPath
      rw [planned]
      have planned : Move studio stream _ :=
        .planned phase checked (congrArg Prod.fst written) planned
      rwa [written] at planned

theorem move_of_supervise {render : SupervisedRender}
    (supervises : stream.Supervises { render with cancelled := stream.cancelled }) :
    Move studio stream (stream.supervise studio render) := by
  simp only [supervise]
  split
  next signal => exact .ended supervises signal
  next failure signal => exact .broken supervises signal
  next running intact => exact .passed supervises running intact

/-- A step of a render stream does one of the things listed. -/
theorem move_of_resume (studio : Studio) (stream : RenderStream) :
    Move studio stream (resume studio stream) := by
  simp only [resume]
  split
  next phase => exact move_of_enter phase
  next phase => exact .turned phase
  next phase => exact move_of_prepare phase
  next job phase => exact move_of_plan phase
  next plan phase => exact move_of_supervise (.first phase)
  next render phase => exact move_of_supervise (.next phase)
  next path phase => exact .left phase
  next phase => exact .idle phase

end RenderStream

end Montage
