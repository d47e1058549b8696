import Montage.Proofs.Render.Ending

/-!
# What render streams leave behind

At every moment a stream holds at most one process that is neither killed nor waited for, and at
most one filter script. Each way out of a phase that holds something settles it: a process is
killed or waited for before its phase is left, and the script is removed with it. Nothing is held
from the terminal event on, nor after the stream has ended or was given up.
-/

namespace Montage

/-- What has been done to a studio and is not settled is at most one process and one script. Of
scripts this is said where deletions succeed. -/
structure Holding (start : Studio) (process : Option Nat) (script : Option String)
    (studio : Studio) : Prop where
  grown : start.journal <+: studio.journal
  processes : ∀ number, LeftRunning number (start.effectsSince studio) → process = some number
  deletes : start.scripts.Deletes → studio.scripts.Deletes
  scripts : start.scripts.Deletes → ∀ path, .scriptWritten path ∈ start.effectsSince studio →
    studio.scripts.files.has path = true → script = some path
  /-- A file that was not there before is the script, or one whose write failed. -/
  files : start.scripts.Deletes → ∀ path, studio.scripts.files.has path = true →
    start.scripts.files.has path = true ∨ script = some path ∨
      .scriptAbandoned path ∈ start.effectsSince studio

namespace Holding

variable {start studio after : Studio} {process next : Option Nat} {script path : Option String}
variable {effect : Effect}

/-- A studio to which nothing was done. -/
theorem untouched (journal : studio.journal = start.journal)
    (scripts : studio.scripts = start.scripts) : Holding start none none studio where
  grown := journal ▸ List.prefix_rfl
  processes := by
    intro number running
    rw [Studio.effectsSince, journal, List.drop_length] at running
    exact absurd running LeftRunning.not_nil
  deletes := fun granted => scripts ▸ granted
  scripts := by
    intro _ path written
    rw [Studio.effectsSince, journal, List.drop_length] at written
    exact absurd written List.not_mem_nil
  files := fun _ path present => .inl (scripts ▸ present)

/-- Only the journal and the scripts of a studio count. -/
theorem congr (holding : Holding start process script studio)
    (journal : after.journal = studio.journal) (scripts : after.scripts = studio.scripts) :
    Holding start process script after where
  grown := journal ▸ holding.grown
  processes := by
    rw [Studio.effectsSince, journal]
    exact holding.processes
  deletes := by
    rw [scripts]
    exact holding.deletes
  scripts := by
    rw [Studio.effectsSince, journal, scripts]
    exact holding.scripts
  files := by
    rw [Studio.effectsSince, journal, scripts]
    exact holding.files

/-- Where no script is held, any may be. -/
theorem cover (holding : Holding start process script studio)
    (covers : script = none ∨ script = path) : Holding start process path studio := by
  rcases covers with rfl | rfl
  · refine ⟨holding.grown, holding.processes, holding.deletes, ?_, ?_⟩
    · intro granted path written present
      exact absurd (holding.scripts granted path written present) (by simp)
    · intro granted path present
      rcases holding.files granted path present with old | held | abandoned
      · exact .inl old
      · contradiction
      · exact .inr (.inr abandoned)
  · exact holding

/-- An effect that writes no script, after which no process runs but the one that is held. -/
theorem record (holding : Holding start process script studio) (effect : Effect)
    (unwritten : ∀ path, effect ≠ .scriptWritten path)
    (running : ∀ number,
      effect = .started number ∨ (process = some number ∧ ¬effect.Settles number) →
        next = some number) :
    Holding start next script (studio.record effect) := by
  have effects := Studio.effectsSince_record holding.grown effect
  refine ⟨holding.grown.trans (List.prefix_append _ _), ?_, holding.deletes, ?_, ?_⟩
  · intro number left
    rw [effects, LeftRunning.append_singleton] at left
    exact running number (left.imp_right fun old => ⟨holding.processes number old.1, old.2⟩)
  · intro granted path written present
    rw [effects, List.mem_append, List.mem_singleton] at written
    rcases written with old | new
    · exact holding.scripts granted path old present
    · exact absurd new.symm (unwritten path)
  · intro granted path present
    rw [effects]
    exact (holding.files granted path present).imp_right
      (Or.imp_right fun abandoned => List.mem_append_left _ abandoned)

/-- An effect that is neither a start nor the end of a process leaves the process held. -/
theorem record_plain (holding : Holding start process script studio) (effect : Effect)
    (unwritten : ∀ path, effect ≠ .scriptWritten path)
    (unstarted : ∀ number, effect ≠ .started number) :
    Holding start process script (studio.record effect) := by
  apply holding.record effect unwritten
  rintro number (started | ⟨held, -⟩)
  · exact absurd started (unstarted number)
  · exact held

/-- The process that is held is settled. -/
theorem settle {number : Nat} (holding : Holding start (some number) script studio)
    (settles : effect.Settles number) : Holding start none script (studio.record effect) := by
  apply holding.record effect
  · intro path written
    cases settles with
    | killed => contradiction
    | ended => contradiction
  · rintro other (started | ⟨held, open'⟩)
    · cases settles with
      | killed => contradiction
      | ended => contradiction
    · cases held
      exact absurd settles open'

/-- The script that is held is removed. -/
theorem clear (holding : Holding start process path studio) :
    Holding start process none (studio.removeScript path) := by
  have removes := studio.removes_removeScript path
  generalize studio.removeScript path = after at removes
  cases removes with
  | idle absent =>
      have unheld (name : String) (present : studio.scripts.files.has name = true) :
          path ≠ some name := by
        intro held
        rw [absent name held] at present
        contradiction
      refine ⟨holding.grown, holding.processes, holding.deletes, ?_, ?_⟩
      · intro granted name written present
        exact absurd (holding.scripts granted name written present) (unheld name present)
      · intro granted name present
        exact (holding.files granted name present).imp_right
          fun rest => .inr (rest.resolve_left (unheld name present))
  | @removed name =>
      refine record_plain ?_ (.scriptRemoved name) (by simp) (by simp)
      refine ⟨holding.grown, holding.processes, ?_, ?_, ?_⟩
      · exact fun granted member => holding.deletes granted (List.mem_of_mem_tail member)
      · intro granted other written present
        simp only [Table.has_filter_ne, Bool.and_eq_true, decide_eq_true_eq] at present
        exact absurd (Option.some.inj (holding.scripts granted other written present.1)) present.2
      · intro granted other present
        simp only [Table.has_filter_ne, Bool.and_eq_true, decide_eq_true_eq] at present
        refine (holding.files granted other present.1).imp_right fun rest => .inr ?_
        exact rest.resolve_left fun held => present.2 (Option.some.inj held)
  | @kept name later present refused =>
      -- This deletion fails, so nothing is said of scripts.
      have ungranted (granted : start.scripts.Deletes) : False := by
        have trusted := holding.deletes granted
        rw [ScriptDirectory.Deletes, refused] at trusted
        exact trusted List.mem_cons_self
      refine record_plain ?_ (.scriptKept name) (by simp) (by simp)
      refine ⟨holding.grown, holding.processes, ?_, ?_, ?_⟩
      · exact fun granted => (ungranted granted).elim
      · exact fun granted => (ungranted granted).elim
      · exact fun granted => (ungranted granted).elim

/-- Asking for a process in vain leaves nothing to settle. -/
theorem submit_of_error {arguments : List String} {failure : Failure}
    (holding : Holding start none script studio)
    (refused : (studio.submit arguments).1 = .error failure) :
    Holding start none script (studio.submit arguments).2 := by
  refine (holding.record_plain
      (.submitted arguments (studio.submittedScript arguments)) ?_ ?_).congr
    (Studio.submit_journal_of_error studio arguments refused)
    (Studio.submit_scripts studio arguments)
  · simp
  · simp

/-- A process that was started is held. -/
theorem submit_of_ok {arguments : List String} {number : Nat} {process : Process}
    (holding : Holding start none script studio)
    (started : (studio.submit arguments).1 = .ok (number, process)) :
    Holding start (some number) script (studio.submit arguments).2 := by
  have asked : Holding start none script
      (studio.record (.submitted arguments (studio.submittedScript arguments))) := by
    apply holding.record_plain
    · simp
    · simp
  have running : Holding start (some number) script
      ((studio.record (.submitted arguments (studio.submittedScript arguments))).record
        (.started number)) := by
    apply asked.record
    · simp
    · simp
  refine running.congr ?_ (Studio.submit_scripts studio arguments)
  rw [Studio.submit_journal_of_ok studio arguments started]
  simp

/-- A process that is watched may be killed, and is held nevertheless. -/
theorem watch {attempt : Attempt} (cancelled : Bool)
    (holding : Holding start (some attempt.number) script studio) :
    Holding start (some attempt.number) script (attempt.watch cancelled studio).1 := by
  simp only [Attempt.watch]
  split
  · apply holding.record_plain
    · simp
    · simp
  · exact holding

/-- A file is written, and is either held or abandoned. -/
theorem write {name text : String} (journal : studio.journal = start.journal)
    (scripts : studio.scripts = start.scripts) (unstarted : ∀ number, effect ≠ .started number)
    (owned : ∀ path, effect = .scriptWritten path → script = some path)
    (told : script = some name ∨ effect = .scriptAbandoned name) :
    Holding start none script
      ({ studio with
          scripts := { studio.scripts with files := studio.scripts.files.insert name text } }.record
        effect) := by
  have effects : start.effectsSince ({ studio with
      scripts := { studio.scripts with files := studio.scripts.files.insert name text } }.record
        effect) = [effect] :=
    Studio.effectsSince_of_journal (congrArg (· ++ [effect]) journal)
  refine ⟨?_, ?_, fun granted => scripts ▸ granted, ?_, ?_⟩
  · rw [Studio.record_journal, journal]
    exact List.prefix_append _ _
  · intro number running
    rw [effects, ← List.nil_append [_], LeftRunning.append_singleton] at running
    rcases running with started | ⟨earlier, -⟩
    · exact absurd started (unstarted number)
    · exact absurd earlier LeftRunning.not_nil
  · intro _ path written _
    rw [effects, List.mem_singleton] at written
    exact owned path written.symm
  · intro _ path present
    simp only [Studio.record_scripts, Table.has_insert, scripts, Bool.or_eq_true,
      decide_eq_true_eq] at present
    rcases present with rfl | old
    · rw [effects, List.mem_singleton]
      exact .inr (told.imp_right Eq.symm)
    · exact .inl old

/-- The script that is written is held. -/
theorem write_of_ok {name text : String} (journal : studio.journal = start.journal)
    (scripts : studio.scripts = start.scripts)
    (written : (studio.writeScript name text).1 = .ok ()) :
    Holding start none (some name) (studio.writeScript name text).2 := by
  have writes := studio.writes_writeScript name text
  generalize studio.writeScript name text = result at writes written
  cases writes with
  | written => exact write journal scripts (by simp) (by simp) (.inl rfl)
  | refused => contradiction
  | abandoned => contradiction

/-- A write that fails leaves no script to hold. -/
theorem write_of_error {name text : String} {failure : Failure}
    (journal : studio.journal = start.journal) (scripts : studio.scripts = start.scripts)
    (unwritten : (studio.writeScript name text).1 = .error failure) :
    Holding start none none (studio.writeScript name text).2 := by
  have writes := studio.writes_writeScript name text
  generalize studio.writeScript name text = result at writes unwritten
  cases writes with
  | written => contradiction
  | refused => exact .untouched journal scripts
  | abandoned => exact write journal scripts (by simp) (by simp) (.inr rfl)

end Holding

/-! ## Supervised renders -/

/-- The process of a phase that is neither killed nor waited for. -/
def Supervision.process? : Supervision → Option Nat
  | .reading attempt => some attempt.number
  | .reported attempt => some attempt.number
  | .waiting attempt => some attempt.number
  | _ => none

namespace SupervisedRender

/-- The script of a render, as long as it has not been removed. -/
def script? (render : SupervisedRender) : Option String :=
  match render.phase with
  | .announced _ => none
  | .concluded => none
  | .finished => none
  | _ => render.plan.scriptPath

variable {start studio : Studio} {render : SupervisedRender} {step : Step SupervisedRender}

theorem script?_covers (render : SupervisedRender) :
    render.script? = none ∨ render.script? = render.plan.scriptPath := by
  simp only [script?]
  split
  · exact .inl rfl
  · exact .inl rfl
  · exact .inl rfl
  · exact .inr rfl

theorem process?_of_starts {arguments : List String} {role : AttemptRole}
    (starts : render.Starts arguments role) : render.phase.process? = none := by
  cases starts with
  | primary phase => simp [phase, Supervision.process?]
  | fallback phase => simp [phase, Supervision.process?]

/-- What a render decides at the end of a process holds nothing. -/
theorem nothing_of_decides {role : AttemptRole} {result : AttemptResult} {phase : Supervision}
    {event : RenderEvent} (decides : render.Decides role result phase event) :
    phase.process? = none ∧ { render with phase := phase }.script? = none := by
  cases decides with
  | cancelled => exact ⟨rfl, rfl⟩
  | succeeded => exact ⟨rfl, rfl⟩
  | announced => exact ⟨rfl, rfl⟩
  | lost => exact ⟨rfl, rfl⟩

/-- A concluded render holds nothing. -/
theorem nothing_of_concluded (done : render.phase.Concluded) :
    render.phase.process? = none ∧ render.script? = none := by
  simp only [script?]
  generalize render.phase = phase at done
  cases phase with
  | concluded => exact ⟨rfl, rfl⟩
  | finished => exact ⟨rfl, rfl⟩
  | ready => exact absurd done not_false
  | reading => exact absurd done not_false
  | reported => exact absurd done not_false
  | waiting => exact absurd done not_false
  | announced => exact absurd done not_false

/-- Each step settles what its phase held and the next one does not. -/
theorem holding_of_move (move : Move studio render step)
    (holding : Holding start render.phase.process? render.script? studio) :
    Holding start step.state.phase.process? step.state.script? step.studio := by
  have covered := holding.cover render.script?_covers
  cases move with
  | refused starts submitted =>
      rw [process?_of_starts starts] at covered
      exact (covered.submit_of_error submitted).clear
  | launched starts submitted =>
      rw [process?_of_starts starts] at covered
      exact covered.submit_of_ok submitted
  | stuck phase =>
      rw [phase] at covered
      simpa [Supervision.process?, script?] using covered.watch render.cancelled
  | closed phase =>
      rw [phase] at covered
      simpa [Supervision.process?, script?] using covered.watch render.cancelled
  | failed phase =>
      rw [phase] at covered
      exact ((covered.watch render.cancelled).settle .killed).clear
  | silent phase takes =>
      rw [phase] at covered
      rw [Attempt.eq_of_take takes.taken]
      simpa [Supervision.process?, script?] using covered.watch render.cancelled
  | progressed phase takes =>
      rw [phase] at covered
      rw [Attempt.eq_of_take takes.taken]
      simpa [Supervision.process?, script?, present] using covered.watch render.cancelled
  | released phase =>
      rw [phase] at covered
      exact covered
  | @decided attempt next event waiting decides =>
      rw [waiting] at covered
      obtain ⟨process, script⟩ := nothing_of_decides decides
      have settled := ((covered.watch render.cancelled).settle
        (Effect.Settles.ended (attempt.watch render.cancelled studio).2.result.exitCode)).clear
      rw [← Attempt.watch_number attempt render.cancelled studio] at settled
      simp only [present, process, script]
      exact settled
  | left phase =>
      rw [phase] at covered
      exact covered.clear
  | idle phase => exact holding

/-- A step after which a render has ended or failed leaves nothing held. -/
theorem nothing_of_halted (move : Move studio render step)
    (holding : Holding start render.phase.process? render.script? studio)
    (halted : step.signal = .ended ∨ ∃ failure, step.signal = .failed failure) :
    Holding start none none step.studio := by
  have held := holding_of_move move holding
  simp only [script?, finished_of_move move halted] at held
  exact held

/-- Giving a render up settles its process. Its script is removed on the way or left to remove. -/
theorem holding_close (holding : Holding start render.phase.process? render.script? studio) :
    Holding start none render.plan.scriptPath (close studio render).1 := by
  have covered := holding.cover render.script?_covers
  cases phase : render.phase with
  | ready =>
      -- The render has not begun, so its script is left to the stream.
      rw [phase] at covered
      simp only [close, phase]
      exact covered
  | reading attempt =>
      rw [phase] at covered
      simp only [close, phase]
      exact (covered.settle .killed).clear.cover (.inl rfl)
  | reported attempt =>
      rw [phase] at covered
      simp only [close, phase]
      exact (covered.settle .killed).clear.cover (.inl rfl)
  | waiting attempt =>
      rw [phase] at covered
      simp only [close, phase]
      exact (covered.settle .killed).clear.cover (.inl rfl)
  | announced primary =>
      rw [phase] at covered
      simp only [close, phase]
      exact covered.clear.cover (.inl rfl)
  | concluded =>
      rw [phase] at covered
      simp only [close, phase]
      exact covered.clear.cover (.inl rfl)
  | finished =>
      rw [phase] at covered
      simp only [close, phase]
      exact covered

end SupervisedRender

/-! ## Streams -/

/-- Nothing that was done to a studio is left to settle. -/
structure Settled (start studio : Studio) : Prop where
  /-- Every process that was started is killed or waited for. -/
  processes : ∀ number, ¬LeftRunning number (start.effectsSince studio)
  /-- Where deletions succeed, every script that was written is gone. -/
  scripts : start.scripts.Deletes → ∀ path, .scriptWritten path ∈ start.effectsSince studio →
    studio.scripts.files.has path = false
  /-- Then a file that was not there before is one whose write failed. -/
  files : start.scripts.Deletes → ∀ path, studio.scripts.files.has path = true →
    start.scripts.files.has path = true ∨ .scriptAbandoned path ∈ start.effectsSince studio

/-- Nothing is left to settle, and a gate that was free is free again. A stream that found the gate
taken has done nothing at all. -/
structure Released (start studio : Studio) : Prop extends Settled start studio where
  free : start.gate.busy = false → studio.gate.busy = false
  turned : start.gate.busy = true → studio = start

theorem Holding.settled {start studio : Studio} (holding : Holding start none none studio) :
    Settled start studio where
  processes := fun number running => absurd (holding.processes number running) (by simp)
  scripts := by
    intro granted path written
    rw [← Bool.not_eq_true]
    intro present
    exact absurd (holding.scripts granted path written present) (by simp)
  files := fun granted path present =>
    (holding.files granted path present).imp_right fun rest => rest.resolve_left (by simp)

/-- A studio to which nothing was done. -/
theorem Holding.refl (start : Studio) : Holding start none none start :=
  .untouched rfl rfl

theorem Released.refl (start : Studio) : Released start start where
  toSettled := (Holding.refl start).settled
  free := id
  turned := fun _ => rfl

/-- The invariant of a stream: what it holds in a phase is what the phase knows of, and the gate is
free before it only if the stream takes it. -/
inductive Tidy (start : Studio) : Studio → StreamPhase → Prop where
  | ready : Tidy start start .ready
  | rejected (busy : start.gate.busy = true) : Tidy start start .rejected
  | greeted {studio : Studio} (free : start.gate.busy = false)
      (journal : studio.journal = start.journal) (scripts : studio.scripts = start.scripts) :
      Tidy start studio .greeted
  | prepared {studio : Studio} {job : RenderJob} (free : start.gate.busy = false)
      (journal : studio.journal = start.journal) (scripts : studio.scripts = start.scripts) :
      Tidy start studio (.prepared job)
  | planned {studio : Studio} {plan : RenderPlan} (free : start.gate.busy = false)
      (holding : Holding start none plan.scriptPath studio) : Tidy start studio (.planned plan)
  | supervising {studio : Studio} {render : SupervisedRender} (free : start.gate.busy = false)
      (holding : Holding start render.phase.process? render.script? studio) :
      Tidy start studio (.supervising render)
  | failing {studio : Studio} {path : Option String} (free : start.gate.busy = false)
      (holding : Holding start none none studio) : Tidy start studio (.failing path)
  | unused : Tidy start start .finished
  | finished {studio : Studio} (free : start.gate.busy = false)
      (holding : Holding start none none studio) (released : studio.gate.busy = false) :
      Tidy start studio .finished

namespace RenderStream

variable {start studio after : Studio} {stream : RenderStream} {step : Step RenderStream}
variable {events : List RenderEvent} {order : RenderOrder} {path : Option String}

/-- Leaving removes the script that is held and frees the gate. -/
theorem tidy_leave (free : start.gate.busy = false) (holding : Holding start none path studio) :
    Tidy start (leave studio path) .finished := by
  apply Tidy.finished free
  · exact holding.clear.congr rfl rfl
  · rfl

theorem holding_of_supervises {render : SupervisedRender}
    (tidy : Tidy start studio stream.phase) (supervises : stream.Supervises render) :
    start.gate.busy = false ∧ Holding start render.phase.process? render.script? studio := by
  cases supervises with
  | first phase =>
      rw [phase] at tidy
      cases tidy with
      | planned free holding => exact ⟨free, holding⟩
  | next phase =>
      rw [phase] at tidy
      cases tidy with
      | supervising free holding => exact ⟨free, holding⟩

/-- Each step of a stream keeps its invariant. -/
theorem tidy_of_move (tidy : Tidy start studio stream.phase) (move : Move studio stream step) :
    Tidy start step.studio step.state.phase := by
  cases move with
  | rejected phase busy =>
      rw [phase] at tidy
      cases tidy with
      | ready => exact .rejected busy
  | entered phase free =>
      rw [phase] at tidy
      cases tidy with
      | ready => exact .greeted free rfl rfl
  | turned phase =>
      rw [phase] at tidy
      cases tidy with
      | rejected => exact .unused
  | unprepared phase =>
      rw [phase] at tidy
      cases tidy with
      | greeted free journal scripts =>
          exact .failing free (.untouched journal scripts)
  | prepared phase =>
      rw [phase] at tidy
      cases tidy with
      | greeted free journal scripts => exact .prepared free journal scripts
  | unchecked phase =>
      rw [phase] at tidy
      cases tidy with
      | prepared free journal scripts =>
          exact .failing free (.untouched journal scripts)
  | unwritten phase _ written =>
      rw [phase] at tidy
      cases tidy with
      | prepared free journal scripts =>
          exact .failing free (Holding.write_of_error journal scripts written)
  | @planned job script plan phase _ written planned =>
      rw [phase] at tidy
      cases tidy with
      | prepared free journal scripts =>
          obtain ⟨arguments, -, equal⟩ := planOf_eq_ok stream.order job stream.order.scriptPath
          rw [planned] at equal
          cases equal
          exact .planned free (Holding.write_of_ok journal scripts written)
  | @ended render supervises signal =>
      obtain ⟨free, holding⟩ := holding_of_supervises tidy supervises
      have move := SupervisedRender.move_of_resume studio render
      have held := SupervisedRender.nothing_of_halted move holding (.inl signal)
      exact tidy_leave free (held.cover (.inl rfl))
  | @broken render failure supervises signal =>
      obtain ⟨free, holding⟩ := holding_of_supervises tidy supervises
      have move := SupervisedRender.move_of_resume studio render
      exact .failing free (SupervisedRender.nothing_of_halted move holding (.inr ⟨failure, signal⟩))
  | @passed render supervises =>
      obtain ⟨free, holding⟩ := holding_of_supervises tidy supervises
      have move := SupervisedRender.move_of_resume studio render
      exact .supervising free (SupervisedRender.holding_of_move move holding)
  | left phase =>
      rw [phase] at tidy
      cases tidy with
      | failing free holding => exact tidy_leave free (holding.cover (.inl rfl))
  | idle phase => exact tidy

/-- Giving a stream up brings it to an end that is as tidy. -/
theorem tidy_close (tidy : Tidy start studio stream.phase) :
    Tidy start (close studio stream).1 .finished := by
  simp only [close]
  generalize stream.phase = phase at tidy
  cases tidy with
  | ready => exact .unused
  | rejected => exact .unused
  | greeted free journal scripts =>
      exact tidy_leave free (.untouched journal scripts)
  | prepared free journal scripts =>
      exact tidy_leave free (.untouched journal scripts)
  | planned free holding => exact tidy_leave free holding
  | supervising free holding =>
      exact tidy_leave free (SupervisedRender.holding_close holding)
  | failing free holding => exact tidy_leave free (holding.cover (.inl rfl))
  | unused => exact .unused
  | finished free holding released => exact .finished free holding released

theorem tidy_of_reaches
    (reached : producer.Reaches studio { order := order } events after stream) :
    Tidy studio after stream.phase := by
  refine reached.invariant (fun _ after now => Tidy studio after now.phase) ?_ ?_ ?_
  · exact .ready
  · exact fun _ _ _ tidy => tidy
  · exact fun _ after now tidy => tidy_of_move tidy (move_of_resume after now)

theorem released_of_tidy (tidy : Tidy start studio .finished) : Released start studio := by
  cases tidy with
  | unused => exact .refl start
  | finished free holding released =>
      refine ⟨holding.settled, fun _ => released, fun busy => ?_⟩
      rw [free] at busy
      contradiction

/-- Wherever a stream is given up, it has left nothing behind. -/
theorem released_close
    (reached : producer.Reaches studio { order := order } events after stream) :
    Released studio (close after stream).1 :=
  released_of_tidy (tidy_close (tidy_of_reaches reached))

/-- From the terminal event on nothing is held. -/
theorem settled_of_concluded {phase : StreamPhase} (tidy : Tidy start studio phase)
    (done : phase.Concluded) : Settled start studio := by
  cases tidy with
  | ready => exact absurd done not_false
  | rejected => exact (Holding.refl start).settled
  | greeted => exact absurd done not_false
  | prepared => exact absurd done not_false
  | planned => exact absurd done not_false
  | @supervising _ render free holding =>
      obtain ⟨process, script⟩ := SupervisedRender.nothing_of_concluded done
      rw [process, script] at holding
      exact holding.settled
  | failing free holding => exact holding.settled
  | unused => exact (Holding.refl start).settled
  | finished free holding => exact holding.settled

/-- A step that ends a stream leaves it finished. -/
theorem finished_of_move (move : Move studio stream step) (ended : step.signal = .ended) :
    step.state.phase = .finished := by
  cases move with
  | rejected => simp [present] at ended
  | entered => simp [present] at ended
  | turned => rfl
  | unprepared => simp [fail, present] at ended
  | prepared => simp [present] at ended
  | unchecked => simp [fail, present] at ended
  | unwritten => simp [fail, present] at ended
  | planned => simp [present] at ended
  | ended => rfl
  | broken => simp [fail, present] at ended
  | passed _ running => exact absurd ended running
  | left => rfl
  | idle phase => exact phase

/-- A stream that has ended or was given up has left nothing behind, and none holds anything from
its terminal event on. -/
theorem released_of_reaches
    (reached : producer.Reaches studio { order := order } events after stream) :
    ((producer.resume after stream).signal = .ended →
        Released studio (producer.resume after stream).studio) ∧
      Released studio (producer.close after stream).1 ∧
      ((∃ event ∈ events, event.isTerminal = true) → Settled studio after) := by
  have tidy := tidy_of_reaches reached
  refine ⟨fun ended => ?_, released_close reached, ?_⟩
  · have move := move_of_resume after stream
    have last := tidy_of_move tidy move
    rw [finished_of_move move ended] at last
    exact released_of_tidy last
  · rintro ⟨event, member, terminal⟩
    rcases told_of_reaches reached with ⟨-, nonterminal⟩ | ⟨done, -⟩
    · rw [nonterminal event member] at terminal
      contradiction
    · exact settled_of_concluded tidy done

/-- A film of one picture. -/
def sampleOrder : RenderOrder where
  workplace := RenderJob.sampleWorkplace
  payload :=
    { RenderJob.samplePayload with
      layers := [Filter.sampleLayer true [Filter.sampleItem "picture" 0]] }
  output := "film.mp4"
  scriptPath := "script.txt"

/-- A studio where the first process fails and the second one never ends by itself. -/
def sampleStudio : Studio where
  launches := [.started { exitCode := 1 }, .started { hangs := true }]

/-- The sample render, cancelled while the second process hangs. -/
def cancelledRun : List RenderEvent × Studio × RenderStream :=
  producer.play sampleStudio { order := sampleOrder }
    (List.replicate 7 .resume ++ [.cancel, .resume, .resume])

theorem released_cancelledRun :
    sampleStudio.scripts.Deletes ∧ ∃ events after stream,
      producer.Reaches sampleStudio { order := sampleOrder } events after stream ∧
        after.startedCount = 2 ∧
        Released sampleStudio (producer.resume after stream).studio ∧
        Released sampleStudio (producer.close after stream).1 ∧ Settled sampleStudio after := by
  have reached : producer.Reaches sampleStudio { order := sampleOrder } cancelledRun.1
      cancelledRun.2.1 cancelledRun.2.2 := producer.reaches_play _ _ _
  have facts : cancelledRun.2.1.startedCount = 2 ∧
      (producer.resume cancelledRun.2.1 cancelledRun.2.2).signal = .ended ∧
      ∃ event ∈ cancelledRun.1, event.isTerminal = true := by
    decide +kernel
  obtain ⟨count, ended, terminal⟩ := facts
  obtain ⟨finished, closed, told⟩ := released_of_reaches reached
  exact ⟨by simp [sampleStudio, ScriptDirectory.Deletes], _, _, _, reached, count,
    finished ended, closed, told terminal⟩

/-! ## Writes that are abandoned -/

/-- A stream that has failed without a script touches no script any more. -/
theorem scripts_of_failing (failing : stream.phase = .failing none)
    (reached : producer.Reaches studio stream events after now) :
    after.scripts = studio.scripts ∧ (close after now).1.scripts = studio.scripts := by
  have kept : after.scripts = studio.scripts ∧
      (now.phase = .failing none ∨ now.phase = .finished) := by
    apply reached.invariant fun _ after now => after.scripts = studio.scripts ∧
      (now.phase = .failing none ∨ now.phase = .finished)
    · exact ⟨rfl, .inl failing⟩
    · exact fun _ _ _ holds => holds
    · rintro events after now ⟨same, phase | phase⟩
      · have left : producer.resume after now = now.finish after none := by
          simp only [producer, resume, phase]
        rw [left]
        exact ⟨same, .inr rfl⟩
      · have idle : producer.resume after now =
            { studio := after, state := now, signal := .ended } := by
          simp only [producer, resume, phase]
        rw [idle]
        exact ⟨same, .inr phase⟩
  obtain ⟨same, phase | phase⟩ := kept
  · refine ⟨same, ?_⟩
    rw [close, phase]
    exact same
  · refine ⟨same, ?_⟩
    rw [close, phase]
    exact same

/-- A stream whose write fails has failed without a script to delete. -/
theorem resume_of_unwritten {job : RenderJob} {script : String} {failure : Failure}
    (phase : stream.phase = .prepared job) (checked : check stream.order job = .ok script)
    (unwritten : (studio.writeScript stream.order.scriptPath script).1 = .error failure) :
    resume studio stream =
      stream.fail (studio.writeScript stream.order.scriptPath script).2 none failure := by
  have written : studio.writeScript stream.order.scriptPath script =
      (.error failure, (studio.writeScript stream.order.scriptPath script).2) :=
    Prod.ext unwritten rfl
  simp only [resume, phase, plan, checked]
  rw [written]

/-- A script whose write is abandoned stays, though its stream ends or is given up. -/
theorem left_of_abandoned {job : RenderJob} {script rest : String} {failure : Failure}
    (free : studio.gate.busy = false)
    (prepared : RenderJob.prepare order.workplace order.payload order.output = .ok job)
    (checked : check order job = .ok script)
    (abandoned : studio.scripts.outcome script = .abandoned failure rest) :
    ∃ events after stream, producer.Reaches studio { order := order } events after stream ∧
      (∃ event ∈ events, event.isTerminal = true) ∧
      after.scripts.files = studio.scripts.files.insert order.scriptPath rest ∧
      (close after stream).1.scripts = after.scripts ∧
      (resume after stream).signal = .ended ∧
      (resume after stream).studio.scripts = after.scripts := by
  -- Three steps: the gate is taken, the job is worked out, and the write fails.
  have initial : producer.Reaches studio { order := order } [] studio { order := order } := .start
  have entered : producer.resume studio { order := order } = RenderStream.present
      { order := order } { studio with gate := { busy := true } } .greeted
      { progress := some 0, message := some "Starting render process..." } := by
    simp [producer, resume, enter, RenderGate.acquire, free]
  have worked : producer.resume { studio with gate := { busy := true } }
      { order := order, phase := .greeted } = RenderStream.present
        { order := order, phase := .greeted } { studio with gate := { busy := true } }
        (.prepared job) (.note ("Found " ++ toString job.inputs.files.length ++ " input files")) := by
    simp [producer, resume, prepare, prepared]
  have ready : ({ order := order, phase := .prepared job } : RenderStream).phase =
      .prepared job := rfl
  have unwritten : (({ studio with gate := { busy := true } } : Studio).writeScript
      order.scriptPath script).1 = .error failure := by
    simp only [Studio.writeScript, abandoned]
  have reached := ((initial.step entered).step worked).step
    (resume_of_unwritten ready checked unwritten)
  have failing : ({ order := order, phase := .failing none } : RenderStream).phase =
      .failing none := rfl
  refine ⟨_, _, _, reached, ?_, ?_, (scripts_of_failing failing .start).2, rfl, rfl⟩
  · exact ⟨_, List.mem_append_right _ List.mem_cons_self, rfl⟩
  · simp only [fail, present, Studio.writeScript, abandoned, ScriptDirectory.write,
      Studio.record_scripts]

/-- A title that is half of a surrogate pair, for which a private character stands. -/
def halvedOrder : RenderOrder where
  workplace := { RenderJob.sampleWorkplace with platform := .windows }
  payload :=
    { RenderJob.samplePayload with
      layers := [Filter.sampleLayer true [Filter.sampleItem "music" 0, Filter.sampleItem "title" 0]]
      mediaLibrary :=
        [{ Filter.sampleAsset "music" .audio with muted := true },
          { Filter.sampleAsset "title" .text with
            text := some "\ue000", backgroundTransparent := true }] }
  output := "film.mp4"
  scriptPath := "script.txt"

/-- A free studio without scripts that knows the half. -/
def halvedStudio : Studio where
  scripts := { halves := [('\ue000', 0xd800)] }
  launches := [.started {}]

theorem abandons_halvedOrder :
    ∃ job script failure,
      RenderJob.prepare halvedOrder.workplace halvedOrder.payload halvedOrder.output = .ok job ∧
        check halvedOrder job = .ok script ∧
        halvedStudio.scripts.outcome script = .abandoned failure "" := by
  have found : ∃ job ∈ (RenderJob.prepare halvedOrder.workplace halvedOrder.payload
      halvedOrder.output).toOption, ∃ script ∈ (check halvedOrder job).toOption,
        ∃ failure ∈ halvedStudio.scripts.encodingFailure? script, True := by
    decide +kernel
  obtain ⟨job, prepared, script, checked, failure, unencoded, -⟩ := found
  refine ⟨job, script, failure, mem_toOption.mp prepared, mem_toOption.mp checked, ?_⟩
  rw [ScriptDirectory.outcome, unencoded]
  rfl

/-- The file of the script is there for good, although every deletion succeeds. -/
theorem left_halvedOrder :
    halvedStudio.scripts.Deletes ∧ ∃ events after stream,
      producer.Reaches halvedStudio { order := halvedOrder } events after stream ∧
        (∃ event ∈ events, event.isTerminal = true) ∧
        halvedStudio.scripts.files.has "script.txt" = false ∧
        after.scripts.files.has "script.txt" = true ∧
        (close after stream).1.scripts.files.has "script.txt" = true ∧
        (resume after stream).signal = .ended ∧
        (resume after stream).studio.scripts.files.has "script.txt" = true := by
  obtain ⟨job, script, failure, prepared, checked, abandoned⟩ := abandons_halvedOrder
  obtain ⟨events, after, stream, reached, told, files, closed, ended, finished⟩ :=
    left_of_abandoned rfl prepared checked abandoned
  have left : after.scripts.files.has "script.txt" = true := by
    rw [files, Table.has_insert]
    rfl
  refine ⟨by simp [halvedStudio, ScriptDirectory.Deletes], events, after, stream, reached, told,
    rfl, left, ?_, ended, ?_⟩
  · rw [closed, left]
  · rw [finished, left]

end RenderStream

end Montage
