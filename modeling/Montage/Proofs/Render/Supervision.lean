import Montage.Proofs.Render.Studio
import Montage.Render.Supervision

/-!
# Steps of supervised renders

All that a step of a supervised render can do, each with the circumstances in which it is done.
What holds of every run is derived from these cases.
-/

namespace Montage

namespace Attempt

@[simp] theorem watch_number (attempt : Attempt) (cancelled : Bool) (studio : Studio) :
    (attempt.watch cancelled studio).2.number = attempt.number := by
  simp only [watch]
  split <;> rfl

@[simp] theorem watch_role (attempt : Attempt) (cancelled : Bool) (studio : Studio) :
    (attempt.watch cancelled studio).2.role = attempt.role := by
  simp only [watch]
  split <;> rfl

/-- A piece of output changes what is written and what is known of the progress. -/
theorem eq_of_take {attempt next : Attempt} {piece : String} {rest : Process}
    {progress : Option Binary64} (taken : attempt.take piece rest = .ok (next, progress)) :
    next = { attempt with
      process := rest, written := attempt.written ++ [piece], role := next.role } := by
  simp only [take] at taken
  split at taken
  next role =>
    cases taken
    rfl
  next parser role =>
    obtain ⟨fed, -, equal⟩ := bind_eq_ok.mp taken
    cases equal
    rfl

/-- The reasons for which reading from a process breaks off. -/
inductive Fails (attempt : Attempt) : Failure → Prop where
  | broken {reason : String} (read : attempt.process.read = .broken reason) :
      Fails attempt (.external reason)
  | arithmetic {piece : String} {rest : Process} {cause : ArithmeticError}
      (read : attempt.process.read = .text piece rest)
      (taken : attempt.take piece rest = .error cause) : Fails attempt (.arithmetic cause)
  /-- The percentage is none that may be reported. -/
  | refused {piece : String} {rest : Process} {next : Attempt} {progress : Binary64}
      {failure : Failure} (read : attempt.process.read = .text piece rest)
      (taken : attempt.take piece rest = .ok (next, some progress))
      (event : RenderEvent.ofProgress progress = .error failure) : Fails attempt failure

/-- What a read leaves of an attempt that goes on, and the percentage that it reports. -/
structure Takes (attempt next : Attempt) (progress : Option Binary64) (piece : String)
    (rest : Process) : Prop where
  read : attempt.process.read = .text piece rest
  taken : attempt.take piece rest = .ok (next, progress)

end Attempt

namespace SupervisedRender

/-- The process that a render starts next, and the role that it starts it in. -/
inductive Starts (render : SupervisedRender) : List String → AttemptRole → Prop where
  | primary (phase : render.phase = .ready) :
      Starts render render.plan.primaryArguments
        (.primary { fallbackDuration := render.plan.duration })
  | fallback {result : AttemptResult} (phase : render.phase = .announced result) :
      Starts render render.plan.fallbackArguments (.fallback result)

/-- What a render decides at the end of a process. -/
inductive Decides (render : SupervisedRender) (role : AttemptRole) (result : AttemptResult) :
    Supervision → RenderEvent → Prop where
  | cancelled (cancel : render.cancelled = true) :
      Decides render role result .concluded (.failed cancelledText)
  | succeeded (cancel : render.cancelled = false) (exitCode : result.exitCode = 0) :
      Decides render role result .concluded (.finished render.plan.output)
  | announced {parser : ProgressParser} (cancel : render.cancelled = false)
      (exitCode : result.exitCode ≠ 0) (primary : role = .primary parser) :
      Decides render role result (.announced result) (.note (fallbackNote result))
  | lost {first : AttemptResult} (cancel : render.cancelled = false)
      (exitCode : result.exitCode ≠ 0) (fallback : role = .fallback first) :
      Decides render role result .concluded (.failed (render.plan.failureReport first result))

/-- The studio after the end of a process. -/
def settle (render : SupervisedRender) (studio : Studio) (attempt : Attempt) : Studio :=
  (studio.record (.ended attempt.number attempt.result.exitCode)).removeScript
    render.plan.scriptPath

/-- What a step of a supervised render can do. -/
inductive Move (studio : Studio) (render : SupervisedRender) : Step SupervisedRender → Prop where
  | refused {arguments : List String} {role : AttemptRole} {failure : Failure}
      (starts : render.Starts arguments role)
      (submitted : (studio.submit arguments).1 = .error failure) :
      Move studio render (render.abandon (studio.submit arguments).2 failure)
  | launched {arguments : List String} {role : AttemptRole} {number : Nat} {process : Process}
      (starts : render.Starts arguments role)
      (submitted : (studio.submit arguments).1 = .ok (number, process)) :
      Move studio render
        { studio := (studio.submit arguments).2
          state :=
            { render with
              phase := .reading
                { number := number, arguments := arguments, process := process, role := role } }
          signal := .paused }
  | stuck {attempt : Attempt} (phase : render.phase = .reading attempt)
      (read : (attempt.watch render.cancelled studio).2.process.read = .silent) :
      Move studio render
        { studio := (attempt.watch render.cancelled studio).1
          state := { render with phase := .reading (attempt.watch render.cancelled studio).2 }
          signal := .stuck }
  | closed {attempt : Attempt} (phase : render.phase = .reading attempt)
      (read : (attempt.watch render.cancelled studio).2.process.read = .closed) :
      Move studio render
        { studio := (attempt.watch render.cancelled studio).1
          state := { render with phase := .waiting (attempt.watch render.cancelled studio).2 }
          signal := .paused }
  | failed {attempt : Attempt} {failure : Failure} (phase : render.phase = .reading attempt)
      (fails : (attempt.watch render.cancelled studio).2.Fails failure) :
      Move studio render
        (render.abandon ((attempt.watch render.cancelled studio).1.record
          (.killed attempt.number)) failure)
  | silent {attempt next : Attempt} {piece : String} {rest : Process}
      (phase : render.phase = .reading attempt)
      (takes : (attempt.watch render.cancelled studio).2.Takes next none piece rest) :
      Move studio render
        { studio := (attempt.watch render.cancelled studio).1
          state := { render with phase := .reading next }
          signal := .paused }
  | progressed {attempt next : Attempt} {progress : Binary64} {piece : String} {rest : Process}
      {event : RenderEvent} (phase : render.phase = .reading attempt)
      (takes : (attempt.watch render.cancelled studio).2.Takes next (some progress) piece rest)
      (valid : RenderEvent.ofProgress progress = .ok event) :
      Move studio render
        (render.present (attempt.watch render.cancelled studio).1 (.reported next) event)
  | released {attempt : Attempt} (phase : render.phase = .reported attempt) :
      Move studio render
        { studio := studio, state := { render with phase := .reading attempt }
          signal := .paused }
  | decided {attempt : Attempt} {phase : Supervision} {event : RenderEvent}
      (waiting : render.phase = .waiting attempt)
      (decides : render.Decides (attempt.watch render.cancelled studio).2.role
        (attempt.watch render.cancelled studio).2.result phase event) :
      Move studio render
        (render.present (render.settle (attempt.watch render.cancelled studio).1
          (attempt.watch render.cancelled studio).2) phase event)
  | left (phase : render.phase = .concluded) :
      Move studio render
        { studio := studio.removeScript render.plan.scriptPath
          state := { render with phase := .finished }
          signal := .ended }
  | idle (phase : render.phase = .finished) :
      Move studio render { studio := studio, state := render, signal := .ended }

/-! ## One lemma for each part of a step -/

variable {studio : Studio} {render : SupervisedRender}

theorem move_of_start {arguments : List String} {role : AttemptRole}
    (starts : render.Starts arguments role) :
    Move studio render (render.start studio arguments role) := by
  simp only [start]
  split
  next failure asked submitted =>
    have refused : Move studio render _ := .refused starts (congrArg Prod.fst submitted)
    rwa [submitted] at refused
  next number process asked submitted =>
    have launched : Move studio render _ := .launched starts (congrArg Prod.fst submitted)
    rwa [submitted] at launched

theorem move_of_read {attempt : Attempt} (phase : render.phase = .reading attempt) :
    Move studio render (render.read studio attempt) := by
  simp only [read, Attempt.kill]
  split
  next read => exact .stuck phase read
  next read => exact .closed phase read
  next reason read =>
    rw [Attempt.watch_number]
    exact .failed phase (.broken read)
  next piece rest read =>
    split
    next cause taken =>
      rw [Attempt.watch_number]
      exact .failed phase (.arithmetic read taken)
    next taken => exact .silent phase ⟨read, taken⟩
    next taken =>
      split
      next event valid => exact .progressed phase ⟨read, taken⟩ valid
      next failure refused =>
        rw [Attempt.eq_of_take taken, Attempt.watch_number]
        exact .failed phase (.refused read taken refused)

theorem decides_of_conclude (studio : Studio) (render : SupervisedRender) (role : AttemptRole)
    (result : AttemptResult) :
    ∃ phase event, render.Decides role result phase event ∧
      render.conclude studio role result = render.present studio phase event := by
  simp only [conclude]
  split
  next cancelled => exact ⟨_, _, .cancelled cancelled, rfl⟩
  next running =>
    have running : render.cancelled = false := by simpa using running
    split
    next exitCode => exact ⟨_, _, .succeeded running exitCode, rfl⟩
    next exitCode =>
      split
      next parser => exact ⟨_, _, .announced running exitCode rfl, rfl⟩
      next first => exact ⟨_, _, .lost running exitCode rfl, rfl⟩

theorem move_of_await {attempt : Attempt} (waiting : render.phase = .waiting attempt) :
    Move studio render (render.await studio attempt) := by
  simp only [await]
  obtain ⟨phase, event, decides, equal⟩ := decides_of_conclude
    (render.settle (attempt.watch render.cancelled studio).1
      (attempt.watch render.cancelled studio).2) render
    (attempt.watch render.cancelled studio).2.role
    (attempt.watch render.cancelled studio).2.result
  rw [settle] at equal
  rw [equal]
  exact .decided waiting decides

/-- A step of a supervised render does one of the things listed. -/
theorem move_of_resume (studio : Studio) (render : SupervisedRender) :
    Move studio render (resume studio render) := by
  simp only [resume]
  split
  next phase => exact move_of_start (.primary phase)
  next attempt phase => exact move_of_read phase
  next attempt phase => exact .released phase
  next attempt phase => exact move_of_await phase
  next primary phase => exact move_of_start (.fallback phase)
  next phase => exact .left phase
  next phase => exact .idle phase

/-- A render that has ended or failed is finished. -/
theorem finished_of_move {step : Step SupervisedRender} (move : Move studio render step)
    (halted : step.signal = .ended ∨ ∃ failure, step.signal = .failed failure) :
    step.state.phase = .finished := by
  cases move with
  | refused => rfl
  | launched => simp at halted
  | stuck => simp at halted
  | closed => simp at halted
  | failed => rfl
  | silent => simp at halted
  | progressed => simp [present] at halted
  | released => simp at halted
  | decided => simp [present] at halted
  | left => rfl
  | idle phase => exact phase

end SupervisedRender

end Montage
