import Montage.Proofs.Render.Stream

/-!
# Renders come to an end

The work that a render has left is what its processes have still to write and the phases that are
still to pass. Every step lessens it, unless the render waits for a process that hangs. So a
render comes to its end or hangs after a bounded number of steps, and once it is cancelled it does
not hang.
-/

namespace Montage

/-- The steps that a process can still cause once it is started. -/
def Launch.work : Launch → Nat
  | .refused _ => 0
  | .started process => 2 * process.chunks.length + 3

/-- The steps that processes can still cause that are not started yet. -/
def Studio.work (studio : Studio) : Nat :=
  (studio.launches.map Launch.work).sum

/-- The steps that a phase can still cause, apart from processes that are not started yet. -/
def Supervision.work : Supervision → Nat
  | .ready => 1
  | .reading attempt => 2 * attempt.process.chunks.length + 3
  | .reported attempt => 2 * attempt.process.chunks.length + 4
  | .waiting _ => 2
  | .announced _ => 1
  | .concluded => 0
  | .finished => 0

/-- The steps that a phase can still cause, apart from processes that are not started yet. -/
def StreamPhase.work : StreamPhase → Nat
  | .ready => 6
  | .greeted => 5
  | .prepared _ => 4
  | .planned _ => 3
  | .supervising render => render.phase.work + 1
  | _ => 0

/-- The step is neither the last one nor one that waits for a process that hangs. -/
def Signal.Goes (signal : Signal) : Prop :=
  signal ≠ .ended ∧ signal ≠ .stuck

namespace Studio

variable (studio : Studio) (arguments : List String)

theorem submit_work_of_ok {number : Nat} {process : Process}
    (started : (studio.submit arguments).1 = .ok (number, process)) :
    (studio.submit arguments).2.work + (2 * process.chunks.length + 3) = studio.work := by
  simp only [submit] at started ⊢
  split
  next launches => simp [launches] at started
  next launches => simp [launches] at started
  next launches =>
    simp only [launches, Except.ok.injEq, Prod.mk.injEq] at started
    simp [work, launches, Launch.work, started.2]
    omega

theorem submit_work_le : (studio.submit arguments).2.work ≤ studio.work := by
  simp only [submit]
  split
  next => rfl
  next launches => simp [work, launches]
  next launches => simp [work, launches]

@[simp] theorem record_work (effect : Effect) : (studio.record effect).work = studio.work := rfl

@[simp] theorem removeScript_work (path : Option String) :
    (studio.removeScript path).work = studio.work := by
  rw [work, removeScript_launches]
  rfl

@[simp] theorem writeScript_work (path text : String) :
    (studio.writeScript path text).2.work = studio.work := by
  rw [work, writeScript_launches]
  rfl

/-- A reader takes more steps than are left, whatever the phase of its stream. -/
theorem work_add_le_stepBound : studio.work + 32 ≤ studio.stepBound := by
  simp only [work, stepBound]
  induction studio.launches with
  | nil => simp
  | cons launch rest ih =>
      cases launch with
      | refused reason =>
          simp only [List.map_cons, List.sum_cons, List.foldr_cons, Launch.work]
          omega
      | started process =>
          simp only [List.map_cons, List.sum_cons, List.foldr_cons, Launch.work]
          omega

end Studio

namespace Attempt

variable {attempt next : Attempt} {piece : String} {rest : Process} {progress : Option Binary64}

@[simp] theorem watch_work (attempt : Attempt) (cancelled : Bool) (studio : Studio) :
    (attempt.watch cancelled studio).1.work = studio.work := by
  simp only [watch]
  split <;> rfl

@[simp] theorem watch_chunks (attempt : Attempt) (cancelled : Bool) (studio : Studio) :
    (attempt.watch cancelled studio).2.process.chunks = attempt.process.chunks := by
  simp only [watch]
  split <;> rfl

/-- Taking a piece of output leaves one piece less. -/
theorem Takes.chunks (takes : attempt.Takes next progress piece rest) :
    attempt.process.chunks.length = next.process.chunks.length + 1 := by
  have read := takes.read
  rw [eq_of_take takes.taken]
  simp only [Process.read] at read
  split at read
  · contradiction
  · split at read
    next listed =>
      cases read
      simp [listed]
    next => contradiction
    next => split at read <;> contradiction

/-- A process that is watched in a cancelled render does not keep it waiting. -/
theorem read_ne_silent (attempt : Attempt) (studio : Studio) :
    (attempt.watch true studio).2.process.read ≠ .silent := by
  have killed : (attempt.watch true studio).2.process.killed = true := by
    simp only [watch]
    split
    · rfl
    · simp_all
  intro silent
  simp only [Process.read, Process.stopped, killed, Bool.true_and] at silent
  split at silent
  · contradiction
  · split at silent
    · contradiction
    · contradiction
    · simp_all

end Attempt

/-- A stream whose work lessens with every step that goes on comes to a step that does not. What
the steps that go on keep holds then. -/
theorem Producer.halts {σ : Type} (producer : Producer σ) {goes : Signal → Prop}
    {work : Studio → σ → Nat} {holds : List RenderEvent → Studio → σ → Prop}
    (lessens : ∀ studio state, goes (producer.resume studio state).signal →
      work (producer.resume studio state).studio (producer.resume studio state).state <
        work studio state)
    (kept : ∀ events studio state, holds events studio state →
      goes (producer.resume studio state).signal →
        holds (events ++ (producer.resume studio state).signal.events)
          (producer.resume studio state).studio (producer.resume studio state).state)
    (events : List RenderEvent) (studio : Studio) (state : σ)
    (initial : holds events studio state) :
    ∃ steps ≤ work studio state, ∃ more after now,
      producer.play studio state (List.replicate steps .resume) = (more, after, now) ∧
        holds (events ++ more) after now ∧ ¬goes (producer.resume after now).signal := by
  generalize bound : work studio state = left
  induction left using Nat.strong_induction_on generalizing events studio state with
  | _ left ih =>
      by_cases going : goes (producer.resume studio state).signal
      · have less := lessens studio state going
        rw [bound] at less
        obtain ⟨steps, few, more, after, now, played, held, halts⟩ :=
          ih _ less _ _ _ (kept events studio state initial going) rfl
        refine ⟨steps + 1, by omega, (producer.resume studio state).signal.events ++ more, after,
          now, ?_, ?_, halts⟩
        · rw [List.replicate_succ, Producer.play]
          exact congrArg
            (fun later => ((producer.resume studio state).signal.events ++ later.1, later.2)) played
        · rw [← List.append_assoc]
          exact held
      · refine ⟨0, Nat.zero_le _, [], studio, state, rfl, ?_, going⟩
        rw [List.append_nil]
        exact initial

/-! ## Supervised renders -/

namespace SupervisedRender

variable {studio : Studio} {render : SupervisedRender} {step : Step SupervisedRender}

theorem work_of_starts {arguments : List String} {role : AttemptRole}
    (starts : render.Starts arguments role) : render.phase.work = 1 := by
  cases starts with
  | primary phase => simp [phase, Supervision.work]
  | fallback phase => simp [phase, Supervision.work]

theorem work_of_decides {role : AttemptRole} {result : AttemptResult} {phase : Supervision}
    {event : RenderEvent} (decides : render.Decides role result phase event) :
    phase.work ≤ 1 := by
  cases decides with
  | cancelled => exact Nat.zero_le 1
  | succeeded => exact Nat.zero_le 1
  | announced => exact le_rfl
  | lost => exact Nat.zero_le 1

/-- A step of a render that goes on lessens the work. -/
theorem work_of_move (move : Move studio render step) (goes : step.signal.Goes) :
    step.studio.work + step.state.phase.work < studio.work + render.phase.work := by
  cases move with
  | @refused arguments _ _ starts =>
      have less := studio.submit_work_le arguments
      rw [work_of_starts starts]
      simp only [abandon, Studio.removeScript_work, Supervision.work]
      omega
  | @launched arguments _ _ _ starts submitted =>
      have less := studio.submit_work_of_ok arguments submitted
      rw [work_of_starts starts]
      simp only [Supervision.work]
      omega
  | stuck => exact absurd rfl goes.2
  | closed phase =>
      simp only [Attempt.watch_work, phase, Supervision.work]
      omega
  | failed phase =>
      simp only [abandon, Studio.removeScript_work, Studio.record_work, Attempt.watch_work, phase,
        Supervision.work]
      omega
  | silent phase takes =>
      have less := takes.chunks
      simp only [Attempt.watch_chunks] at less
      simp only [Attempt.watch_work, phase, Supervision.work]
      omega
  | progressed phase takes =>
      have less := takes.chunks
      simp only [Attempt.watch_chunks] at less
      simp only [present, Attempt.watch_work, phase, Supervision.work]
      omega
  | released phase =>
      simp only [phase, Supervision.work]
      omega
  | decided waiting decides =>
      have less := work_of_decides decides
      have before : render.phase.work = 2 := by rw [waiting, Supervision.work]
      simp only [present, settle, Studio.removeScript_work, Studio.record_work,
        Attempt.watch_work]
      omega
  | left => exact absurd rfl goes.1
  | idle => exact absurd rfl goes.1

/-- The steps that a render and the processes to come can still cause. -/
def work (studio : Studio) (render : SupervisedRender) : Nat :=
  studio.work + render.phase.work

/-- A cancelled render does not wait for a process that hangs. -/
theorem ne_stuck_of_move (move : Move studio render step) (cancelled : render.cancelled = true) :
    step.signal ≠ .stuck := by
  cases move with
  | @stuck attempt _ read =>
      rw [cancelled] at read
      exact absurd read (attempt.read_ne_silent studio)
  | _ => simp [abandon, present]

end SupervisedRender

/-! ## Streams -/

namespace RenderStream

variable {studio : Studio} {stream : RenderStream} {step : Step RenderStream}

theorem work_of_supervises {render : SupervisedRender} (supervises : stream.Supervises render) :
    render.phase.work + 1 ≤ stream.phase.work := by
  cases supervises with
  | first phase => simp [phase, StreamPhase.work, Supervision.work]
  | next phase => simp [phase, StreamPhase.work]

/-- A step of a stream that goes on lessens the work. -/
theorem work_of_move (move : Move studio stream step) (goes : step.signal.Goes) :
    step.studio.work + step.state.phase.work < studio.work + stream.phase.work := by
  cases move with
  | rejected phase => simp [present, phase, StreamPhase.work]
  | entered phase => simp [present, phase, StreamPhase.work, Studio.work]
  | turned => exact absurd rfl goes.1
  | unprepared phase => simp [fail, present, phase, StreamPhase.work]
  | prepared phase => simp [present, phase, StreamPhase.work]
  | unchecked phase => simp [fail, present, phase, StreamPhase.work]
  | unwritten phase => simp [fail, present, phase, StreamPhase.work]
  | planned phase => simp [present, phase, StreamPhase.work]
  | ended => exact absurd rfl goes.1
  | @broken render failure supervises signal =>
      have before := work_of_supervises supervises
      have less := SupervisedRender.work_of_move (SupervisedRender.move_of_resume studio render)
        (by simp [Signal.Goes, signal])
      have after : (StreamPhase.failing render.plan.scriptPath).work = 0 := rfl
      simp only [fail, present, after]
      omega
  | @passed render supervises =>
      have before := work_of_supervises supervises
      have move := SupervisedRender.move_of_resume studio render
      have less := SupervisedRender.work_of_move move goes
      have after : (StreamPhase.supervising (SupervisedRender.resume studio render).state).work =
        (SupervisedRender.resume studio render).state.phase.work + 1 := rfl
      simp only [after]
      omega
  | left => exact absurd rfl goes.1
  | idle => exact absurd rfl goes.1

/-- A cancelled stream does not wait for a process that hangs. -/
theorem ne_stuck_of_move (move : Move studio stream step) (cancelled : stream.cancelled = true) :
    step.signal ≠ .stuck := by
  cases move with
  | @passed render supervises =>
      have seen : render.cancelled = true := by
        cases supervises with
        | first => exact cancelled
        | next => exact cancelled
      exact SupervisedRender.ne_stuck_of_move (SupervisedRender.move_of_resume studio render) seen
  | _ => simp [fail, present, finish]

theorem cancelled_of_move (move : Move studio stream step) :
    step.state.cancelled = stream.cancelled := by
  cases move with
  | _ => rfl

/-- The steps that a stream and the processes to come can still cause. -/
def work (studio : Studio) (stream : RenderStream) : Nat :=
  studio.work + stream.phase.work

/-- From every state a stream comes to its end within as many steps as it has work left, unless it
is not cancelled and comes to wait for a process that hangs. -/
theorem ends_or_hangs (studio : Studio) (stream : RenderStream) :
    ∃ steps ≤ studio.work + stream.phase.work, ∃ events after now,
      producer.play studio stream (List.replicate steps .resume) = (events, after, now) ∧
        ((producer.resume after now).signal = .ended ∨
          (stream.cancelled = false ∧ (producer.resume after now).signal = .stuck)) := by
  have lessens (studio : Studio) (stream : RenderStream)
      (goes : (producer.resume studio stream).signal.Goes) :
      work (producer.resume studio stream).studio (producer.resume studio stream).state <
        work studio stream :=
    work_of_move (move_of_resume studio stream) goes
  obtain ⟨steps, few, events, after, now, played, same, halted⟩ := producer.halts lessens
    (fun _ after now (same : now.cancelled = stream.cancelled) _ =>
      (cancelled_of_move (move_of_resume after now)).trans same)
    [] studio stream rfl
  refine ⟨steps, few, events, after, now, played, ?_⟩
  by_cases ended : (producer.resume after now).signal = .ended
  · exact .inl ended
  · have stuck := not_not.mp fun going => halted ⟨ended, going⟩
    refine .inr ⟨?_, stuck⟩
    rw [← same, ← Bool.not_eq_true]
    intro cancelled
    exact ne_stuck_of_move (move_of_resume after now) cancelled stuck

end RenderStream

end Montage
