import Montage.Proofs.Render.Cleanup

/-!
# Holding the gate

A stream takes the gate with its first step or not at all. Once it has, each step keeps the gate
until the last one, which leaves it free; so does giving the stream up. What happens to processes
and writes meanwhile is not up to the stream, and it holds no more than before however they turn
out.
-/

namespace Montage

/-- Whether a stream shows nothing more after a signal. -/
def Signal.isLast : Signal → Bool
  | .ended => true
  | .failed _ => true
  | _ => false

/-- The gate was taken by the stream and is not left yet. -/
def StreamPhase.Entered : StreamPhase → Prop
  | .greeted => True
  | .prepared _ => True
  | .planned _ => True
  | .supervising _ => True
  | .failing _ => True
  | _ => False

/-- The studio under other circumstances: how processes, writes and deletions turn out is not up to
the streams. The files are those that are there. -/
def Studio.under (studio : Studio) (launches : List Launch) (scripts : ScriptDirectory) : Studio :=
  { studio with launches := launches, scripts := { scripts with files := studio.scripts.files } }

/-- The studio where the next deletion fails. -/
def Studio.refusing (studio : Studio) : Studio :=
  { studio with scripts := { studio.scripts with deletions := [false] } }

namespace StreamPhase

variable {phase : StreamPhase}

theorem Entered.ne_ready (entered : phase.Entered) : phase ≠ .ready := by
  rintro rfl
  exact entered

theorem not_entered_iff :
    ¬phase.Entered ↔ phase = .ready ∨ phase = .rejected ∨ phase = .finished := by
  cases phase with
  | _ => simp [Entered]

end StreamPhase

/-! ## Steps at the gate -/

@[simp] theorem Attempt.watch_gate (attempt : Attempt) (cancelled : Bool) (studio : Studio) :
    (attempt.watch cancelled studio).1.gate = studio.gate := by
  simp only [watch]
  split <;> rfl

/-- A supervised render does not touch the gate. -/
theorem SupervisedRender.gate_of_move {studio : Studio} {render : SupervisedRender}
    {step : Step SupervisedRender} (move : Move studio render step) :
    step.studio.gate = studio.gate := by
  cases move with
  | refused => simp [abandon]
  | launched => simp
  | stuck => simp
  | closed => simp
  | failed => simp [abandon]
  | silent => simp
  | progressed => simp [present]
  | released => rfl
  | decided => simp [present, settle]
  | left => simp
  | idle => rfl

namespace RenderStream

variable {studio : Studio} {stream : RenderStream} {step : Step RenderStream}

/-- A stream that holds the gate goes on holding it, until it ends and leaves it free. -/
theorem entered_of_move (move : Move studio stream step) (entered : stream.phase.Entered) :
    (step.state.phase.Entered ∧ step.signal.isLast = false ∧ step.studio.gate = studio.gate) ∨
      (step.state.phase = .finished ∧ step.signal = .ended ∧
        step.studio.gate.busy = false) := by
  cases move with
  | rejected phase => simp [phase, StreamPhase.Entered] at entered
  | entered phase => simp [phase, StreamPhase.Entered] at entered
  | turned phase => simp [phase, StreamPhase.Entered] at entered
  | unprepared => exact .inl ⟨trivial, rfl, rfl⟩
  | prepared => exact .inl ⟨trivial, rfl, rfl⟩
  | unchecked => exact .inl ⟨trivial, rfl, rfl⟩
  | unwritten => exact .inl ⟨trivial, rfl, Studio.writeScript_gate ..⟩
  | planned => exact .inl ⟨trivial, rfl, Studio.writeScript_gate ..⟩
  | ended => exact .inr ⟨rfl, rfl, rfl⟩
  | @broken render _ supervises =>
      exact .inl ⟨trivial, rfl,
        SupervisedRender.gate_of_move (SupervisedRender.move_of_resume studio render)⟩
  | @passed render supervises running intact =>
      refine .inl ⟨trivial, ?_,
        SupervisedRender.gate_of_move (SupervisedRender.move_of_resume studio render)⟩
      generalize (SupervisedRender.resume studio render).signal = signal at running intact
      cases signal with
      | paused => rfl
      | stuck => rfl
      | event => rfl
      | ended => exact absurd rfl running
      | failed failure => exact absurd rfl (intact failure)
  | left => exact .inr ⟨rfl, rfl, rfl⟩
  | idle phase => simp [phase, StreamPhase.Entered] at entered

theorem close_phase (studio : Studio) (stream : RenderStream) :
    (close studio stream).2 = { stream with phase := .finished } := by
  simp only [close]
  split <;> rfl

/-- A stream that holds the gate leaves it free when it is given up. -/
theorem close_of_entered (entered : stream.phase.Entered) :
    (close studio stream).1.gate.busy = false := by
  simp only [close]
  generalize stream.phase = phase at entered
  cases phase with
  | greeted => rfl
  | prepared => rfl
  | planned => rfl
  | supervising => rfl
  | failing => rfl
  | ready => exact absurd entered not_false
  | rejected => exact absurd entered not_false
  | finished => exact absurd entered not_false

/-- A stream that does not hold the gate touches nothing when it is given up. -/
theorem close_of_not_entered (outside : ¬stream.phase.Entered) :
    (close studio stream).1 = studio := by
  simp only [close]
  rcases StreamPhase.not_entered_iff.mp outside with phase | phase | phase
  · rw [phase]
  · rw [phase]
  · rw [phase]

end RenderStream

/-! ## What a stream holds meanwhile -/

/-- Whatever a phase holds, it is held since now. -/
theorem Holding.anew (studio : Studio) (process : Option Nat) (script : Option String) :
    Holding { studio with gate := {} } process script studio := by
  have untouched : Holding { studio with gate := {} } none none studio :=
    .untouched rfl rfl
  refine ⟨untouched.grown, fun number running => ?_, id, fun granted path written present => ?_,
    fun _ path present => .inl present⟩
  · exact absurd (untouched.processes number running) (by simp)
  · exact absurd (untouched.scripts granted path written present) (by simp)

/-- Under other circumstances deletions may fail, so nothing more is said of scripts. -/
theorem Holding.under {start studio : Studio} {process : Option Nat} {script : Option String}
    (holding : Holding start process script studio) (launches : List Launch)
    (scripts : ScriptDirectory) :
    Holding start.refusing process script (studio.under launches scripts) where
  grown := holding.grown
  processes := holding.processes
  deletes := fun granted => absurd List.mem_cons_self granted
  scripts := fun granted => absurd List.mem_cons_self granted
  files := fun granted => absurd List.mem_cons_self granted

namespace Tidy

variable {start studio : Studio} {phase : StreamPhase}

/-- Wherever a stream stands that holds the gate, it may be followed from there. -/
theorem anew (studio : Studio) (entered : phase.Entered) :
    Tidy { studio with gate := {} } studio phase := by
  cases phase with
  | greeted => exact .greeted rfl rfl rfl
  | prepared job => exact .prepared rfl rfl rfl
  | planned plan => exact .planned rfl (.anew ..)
  | supervising render => exact .supervising rfl (.anew ..)
  | failing path => exact .failing rfl (.anew ..)
  | ready => exact absurd entered not_false
  | rejected => exact absurd entered not_false
  | finished => exact absurd entered not_false

/-- In every phase a stream holds one process and one script at most. -/
theorem holding (tidy : Tidy start studio phase) :
    ∃ process script, Holding start process script studio := by
  cases tidy with
  | ready => exact ⟨_, _, .refl start⟩
  | rejected => exact ⟨_, _, .refl start⟩
  | greeted free journal scripts =>
      exact ⟨_, _, .untouched journal scripts⟩
  | prepared free journal scripts =>
      exact ⟨_, _, .untouched journal scripts⟩
  | planned free holding => exact ⟨_, _, holding⟩
  | supervising free holding => exact ⟨_, _, holding⟩
  | failing free holding => exact ⟨_, _, holding⟩
  | unused => exact ⟨_, _, .refl start⟩
  | finished free holding => exact ⟨_, _, holding⟩

theorem grown (tidy : Tidy start studio phase) : start.journal <+: studio.journal := by
  obtain ⟨process, script, holding⟩ := tidy.holding
  exact holding.grown

theorem unique_running (tidy : Tidy start studio phase) {number other : Nat}
    (left : LeftRunning number (start.effectsSince studio))
    (left' : LeftRunning other (start.effectsSince studio)) : number = other := by
  obtain ⟨process, script, holding⟩ := tidy.holding
  have held := holding.processes number left
  rw [holding.processes other left'] at held
  exact (Option.some.inj held).symm

/-- Other circumstances leave a stream as tidy. -/
theorem under (tidy : Tidy start studio phase) (entered : phase.Entered)
    (launches : List Launch) (scripts : ScriptDirectory) :
    ∃ start', Tidy start' (studio.under launches scripts) phase ∧
      start'.effectsSince (studio.under launches scripts) = start.effectsSince studio := by
  cases tidy with
  | ready => exact absurd entered not_false
  | rejected => exact absurd entered not_false
  | greeted free journal =>
      exact ⟨{ start with scripts := (studio.under launches scripts).scripts },
        .greeted free journal rfl, rfl⟩
  | prepared free journal =>
      exact ⟨{ start with scripts := (studio.under launches scripts).scripts },
        .prepared free journal rfl, rfl⟩
  | planned free holding => exact ⟨start.refusing, .planned free (holding.under launches scripts), rfl⟩
  | supervising free holding =>
      exact ⟨start.refusing, .supervising free (holding.under launches scripts), rfl⟩
  | failing free holding =>
      exact ⟨start.refusing, .failing free (holding.under launches scripts), rfl⟩
  | unused => exact absurd entered not_false
  | finished => exact absurd entered not_false

end Tidy

namespace RenderStream

variable {studio : Studio} {stream : RenderStream} {step : Step RenderStream}

/-- The journal only grows while a stream holds the gate. -/
theorem grown_of_move (move : Move studio stream step) (entered : stream.phase.Entered) :
    studio.journal <+: step.studio.journal :=
  (tidy_of_move (.anew studio entered) move).grown

theorem grown_close (entered : stream.phase.Entered) :
    studio.journal <+: (close studio stream).1.journal :=
  (tidy_close (.anew studio entered)).grown

end RenderStream

end Montage
