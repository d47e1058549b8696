import Montage.Proofs.Job
import Montage.Proofs.Render.Termination

/-!
# How render streams end

A stream is concluded once it has shown a terminal event. Until then no step ends it, and a step
that shows a terminal event concludes it; from then on it shows nothing. Failures of any kind on
the way become the event that concludes.
-/

namespace Montage

/-- The terminal event has been shown. -/
def Supervision.Concluded : Supervision → Prop
  | .concluded => True
  | .finished => True
  | _ => False

/-- The terminal event has been shown. -/
def StreamPhase.Concluded : StreamPhase → Prop
  | .rejected => True
  | .supervising render => render.phase.Concluded
  | .failing _ => True
  | .finished => True
  | _ => False

/-- Exactly one event is terminal, and it is the last one. -/
def EndsOnce (events : List RenderEvent) : Prop :=
  ∃ earlier last, events = earlier ++ [last] ∧ last.isTerminal = true ∧
    ∀ event ∈ earlier, event.isTerminal = false

/-- The signal of a step that does not end a stream, and whether the stream is concluded then. -/
inductive Advances (concluded : Prop) : Signal → Prop where
  | onward {signal : Signal} (going : ¬concluded) (running : signal ≠ .ended)
      (intact : ∀ failure, signal ≠ .failed failure)
      (nonterminal : ∀ event ∈ signal.events, event.isTerminal = false) :
      Advances concluded signal
  | last {event : RenderEvent} (done : concluded) (terminal : event.isTerminal = true) :
      Advances concluded (.event event)

theorem RenderEvent.isTerminal_of_ofProgress {progress : Binary64} {event : RenderEvent}
    (valid : ofProgress progress = .ok event) : event.isTerminal = false := by
  simp only [ofProgress] at valid
  split at valid
  · cases valid
    rfl
  · contradiction

namespace Advances

variable {concluded : Prop} {event : RenderEvent}

theorem paused (going : ¬concluded) : Advances concluded .paused := by
  apply Advances.onward going
  · simp
  · simp
  · simp

theorem stuck (going : ¬concluded) : Advances concluded .stuck := by
  apply Advances.onward going
  · simp
  · simp
  · simp

theorem shown (going : ¬concluded) (nonterminal : event.isTerminal = false) :
    Advances concluded (.event event) := by
  apply Advances.onward going
  · simp
  · simp
  · simpa using nonterminal

end Advances

/-! ## Supervised renders -/

namespace SupervisedRender

variable {studio : Studio} {render : SupervisedRender} {step : Step SupervisedRender}

theorem not_concluded_of_starts {arguments : List String} {role : AttemptRole}
    (starts : render.Starts arguments role) : ¬render.phase.Concluded := by
  cases starts with
  | primary phase => simp [phase, Supervision.Concluded]
  | fallback phase => simp [phase, Supervision.Concluded]

/-- What a render decides concludes it exactly if the event is terminal. -/
theorem advances_of_decides {role : AttemptRole} {result : AttemptResult} {phase : Supervision}
    {event : RenderEvent} (decides : render.Decides role result phase event) :
    Advances phase.Concluded (.event event) := by
  cases decides with
  | cancelled => exact .last trivial rfl
  | succeeded => exact .last trivial rfl
  | announced => exact .shown not_false rfl
  | lost => exact .last trivial rfl

/-- A render that is not concluded goes on or fails. -/
theorem advances_of_move (move : Move studio render step) (going : ¬render.phase.Concluded) :
    Advances step.state.phase.Concluded step.signal ∨
      ∃ failure, step.signal = .failed failure := by
  cases move with
  | refused => exact .inr ⟨_, rfl⟩
  | launched => exact .inl (.paused not_false)
  | stuck => exact .inl (.stuck not_false)
  | closed => exact .inl (.paused not_false)
  | failed => exact .inr ⟨_, rfl⟩
  | silent => exact .inl (.paused not_false)
  | progressed _ _ valid =>
      exact .inl (.shown not_false (RenderEvent.isTerminal_of_ofProgress valid))
  | released => exact .inl (.paused not_false)
  | decided _ decides => exact .inl (advances_of_decides decides)
  | left phase => exact absurd (phase ▸ trivial) going
  | idle phase => exact absurd (phase ▸ trivial) going

/-- A render that is concluded ends. -/
theorem ended_of_move (move : Move studio render step) (done : render.phase.Concluded) :
    step.signal = .ended := by
  cases move with
  | refused starts => exact absurd done (not_concluded_of_starts starts)
  | launched starts => exact absurd done (not_concluded_of_starts starts)
  | stuck phase => simp [phase, Supervision.Concluded] at done
  | closed phase => simp [phase, Supervision.Concluded] at done
  | failed phase => simp [phase, Supervision.Concluded] at done
  | silent phase => simp [phase, Supervision.Concluded] at done
  | progressed phase => simp [phase, Supervision.Concluded] at done
  | released phase => simp [phase, Supervision.Concluded] at done
  | decided phase => simp [phase, Supervision.Concluded] at done
  | left => rfl
  | idle => rfl

end SupervisedRender

/-! ## Streams -/

namespace RenderStream

variable {studio after : Studio} {stream now : RenderStream} {step : Step RenderStream}
variable {events : List RenderEvent} {order : RenderOrder}

theorem concluded_of_supervises {render : SupervisedRender}
    (supervises : stream.Supervises render) :
    stream.phase.Concluded ↔ render.phase.Concluded := by
  cases supervises with
  | first phase => simp [phase, StreamPhase.Concluded, Supervision.Concluded]
  | next phase => simp [phase, StreamPhase.Concluded]

/-- A stream that is not concluded goes on, and a failure concludes it with an event. -/
theorem advances_of_move (move : Move studio stream step) (going : ¬stream.phase.Concluded) :
    Advances step.state.phase.Concluded step.signal := by
  cases move with
  | rejected => exact .last trivial rfl
  | entered => exact .shown not_false rfl
  | turned phase => exact absurd (phase ▸ trivial) going
  | unprepared => exact .last trivial rfl
  | prepared => exact .shown not_false rfl
  | unchecked => exact .last trivial rfl
  | unwritten => exact .last trivial rfl
  | planned => exact .shown not_false rfl
  | @ended render supervises signal =>
      rw [concluded_of_supervises supervises] at going
      have advances :=
        SupervisedRender.advances_of_move (SupervisedRender.move_of_resume studio render) going
      rw [signal] at advances
      rcases advances with onward | ⟨failure, failed⟩
      · cases onward with
        | onward _ running => exact absurd rfl running
      · contradiction
  | broken => exact .last trivial rfl
  | @passed render supervises _ intact =>
      rw [concluded_of_supervises supervises] at going
      have advances :=
        SupervisedRender.advances_of_move (SupervisedRender.move_of_resume studio render) going
      exact advances.resolve_right fun ⟨failure, failed⟩ => intact failure failed
  | left phase => exact absurd (phase ▸ trivial) going
  | idle phase => exact absurd (phase ▸ trivial) going

/-- A stream that is concluded ends and shows nothing more. -/
theorem ended_of_move (move : Move studio stream step) (done : stream.phase.Concluded) :
    step.signal = .ended ∧ step.state.phase.Concluded := by
  cases move with
  | rejected phase => simp [phase, StreamPhase.Concluded] at done
  | entered phase => simp [phase, StreamPhase.Concluded] at done
  | turned => exact ⟨rfl, trivial⟩
  | unprepared phase => simp [phase, StreamPhase.Concluded] at done
  | prepared phase => simp [phase, StreamPhase.Concluded] at done
  | unchecked phase => simp [phase, StreamPhase.Concluded] at done
  | unwritten phase => simp [phase, StreamPhase.Concluded] at done
  | planned phase => simp [phase, StreamPhase.Concluded] at done
  | ended => exact ⟨rfl, trivial⟩
  | @broken render failure supervises signal =>
      rw [concluded_of_supervises supervises] at done
      have ended := SupervisedRender.ended_of_move
        (SupervisedRender.move_of_resume studio render) done
      rw [signal] at ended
      contradiction
  | @passed render supervises running =>
      rw [concluded_of_supervises supervises] at done
      exact absurd (SupervisedRender.ended_of_move
        (SupervisedRender.move_of_resume studio render) done) running
  | left => exact ⟨rfl, trivial⟩
  | idle => exact ⟨rfl, done⟩

/-- The invariant of the events: none is terminal before the conclusion, and from then on exactly
the last one is. -/
def Told (events : List RenderEvent) (stream : RenderStream) : Prop :=
  (¬stream.phase.Concluded ∧ ∀ event ∈ events, event.isTerminal = false) ∨
    (stream.phase.Concluded ∧ EndsOnce events)

theorem Told.resume (told : Told events stream) (studio : Studio) :
    Told (events ++ (resume studio stream).signal.events) (resume studio stream).state := by
  have move := move_of_resume studio stream
  rcases told with ⟨going, nonterminal⟩ | ⟨done, once⟩
  · have advances := advances_of_move move going
    generalize outcome : (RenderStream.resume studio stream).signal = signal at advances ⊢
    cases advances with
    | onward going _ _ more =>
        refine .inl ⟨going, fun event member => ?_⟩
        rcases List.mem_append.mp member with old | new
        · exact nonterminal event old
        · exact more event new
    | last done terminal => exact .inr ⟨done, events, _, rfl, terminal, nonterminal⟩
  · obtain ⟨ended, done⟩ := ended_of_move move done
    rw [ended]
    rw [Signal.events_ended, List.append_nil]
    exact .inr ⟨done, once⟩

/-- Wherever a stream can come to, its events are told. -/
theorem told_of_reaches
    (reached : producer.Reaches studio { order := order } events after stream) :
    Told events stream := by
  refine reached.invariant (fun events _ now => Told events now) ?_ ?_ ?_
  · exact .inl ⟨not_false, by simp⟩
  · exact fun events after now told => told
  · exact fun events after now told => told.resume after

/-- The next step of a stream whose events are told. -/
theorem signal_of_told (told : Told events stream) (move : Move after stream step) :
    (∀ failure, step.signal ≠ .failed failure) ∧ (step.signal = .ended → EndsOnce events) := by
  rcases told with ⟨going, -⟩ | ⟨done, once⟩
  · have advances := advances_of_move move going
    constructor
    · intro failure failed
      rw [failed] at advances
      cases advances with
      | onward _ _ intact => exact intact failure rfl
    · intro ended
      rw [ended] at advances
      cases advances with
      | onward _ running => exact absurd rfl running
  · constructor
    · intro failure failed
      rw [(ended_of_move move done).1] at failed
      contradiction
    · exact fun _ => once

/-- No failure leaves a stream. A stream that has come to its end has shown exactly one terminal
event, at last, and every stream can come to its end, unless it is not cancelled and comes to wait
for a process that hangs. -/
theorem endsOnce_of_reaches
    (reached : producer.Reaches studio { order := order } events after stream) :
    (∀ failure, (producer.resume after stream).signal ≠ .failed failure) ∧
      ((producer.resume after stream).signal = .ended → EndsOnce events) ∧
      ∃ steps more later now,
        producer.play after stream (List.replicate steps .resume) = (more, later, now) ∧
          ((producer.resume later now).signal = .ended ∨
            (stream.cancelled = false ∧ (producer.resume later now).signal = .stuck)) := by
  have move := move_of_resume after stream
  refine ⟨?_, ?_, ?_⟩
  · intro failure failed
    exact (signal_of_told (told_of_reaches reached) move).1 failure failed
  · intro ended
    exact (signal_of_told (told_of_reaches reached) move).2 ended
  · obtain ⟨steps, -, halted⟩ := ends_or_hangs after stream
    exact ⟨steps, halted⟩

/-- The sample payload with a picture whose place is no number. -/
def misplacedOrder : RenderOrder where
  workplace := RenderJob.sampleWorkplace
  payload :=
    { RenderJob.samplePayload with
      layers :=
        [Filter.sampleLayer true
          [{ Filter.sampleItem "picture" 0 with geometry := some { x := .real .nan } }]] }
  output := "film.mp4"
  scriptPath := "script.txt"

theorem endsOnce_misplacedOrder :
    ∃ events after stream,
      producer.Reaches {} { order := misplacedOrder } events after stream ∧
        (producer.resume after stream).signal = .ended ∧
        events.map (·.error) =
          [none, some "Render process failed: cannot convert float NaN to integer"] ∧
        EndsOnce events := by
  have reached := producer.reaches_play {} { order := misplacedOrder } [.resume, .resume]
  have ended : (producer.resume
      (producer.play {} { order := misplacedOrder } [.resume, .resume]).2.1
      (producer.play {} { order := misplacedOrder } [.resume, .resume]).2.2).signal = .ended := by
    decide +kernel
  refine ⟨_, _, _, reached, ended, ?_, (endsOnce_of_reaches reached).2.1 ended⟩
  decide +kernel

end RenderStream

end Montage
