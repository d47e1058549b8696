import Montage.Proofs.Render.Chronology
import Montage.Proofs.Render.Ending

/-!
# What a cancellation decides

A render that is cancelled stays so, and from then on no event but the report of the cancellation
ends it, however its process ends. The second process is not asked for after a cancellation, with
one exception: the render does not look again while the client holds the note that announces it.
-/

namespace Montage

/-- The report that both processes failed does not read like the report of a cancellation. -/
theorem failureReport_ne_cancelledText (plan : RenderPlan) (first second : AttemptResult) :
    plan.failureReport first second ≠ cancelledText := by
  intro equal
  obtain ⟨rest, report⟩ : ∃ rest, plan.failureReport first second =
      "FFmpeg complex render failed with code " ++ rest := by
    -- The equation of the report takes too long to derive.
    delta RenderPlan.failureReport
    simp only [String.append_assoc]
    exact ⟨_, rfl⟩
  have length := congrArg String.length (report.symm.trans equal)
  have opening : "FFmpeg complex render failed with code ".length = 39 := by decide +kernel
  have text : cancelledText.length = 16 := by decide +kernel
  rw [String.length_append, opening, text] at length
  omega

/-- The step is neither the last one, nor one that waits for a process that hangs, nor one that a
failure leaves. -/
def Signal.Proceeds (signal : Signal) : Prop :=
  signal.Goes ∧ ∀ failure, signal ≠ .failed failure

namespace SupervisedRender

variable {start studio after last : Studio} {render now next : SupervisedRender}
variable {step : Step SupervisedRender} {plan : RenderPlan} {events more : List RenderEvent}

theorem cancelled_of_move (move : Move studio render step) :
    step.state.cancelled = render.cancelled := by
  cases move with
  | _ => rfl

/-- A cancelled render stays cancelled. -/
theorem cancelled_of_reaches (reached : producer.Reaches studio render events after now)
    (cancelled : render.cancelled = true) : now.cancelled = true := by
  refine reached.invariant (fun _ _ now => now.cancelled = true) cancelled ?_ ?_
  · exact fun _ _ _ _ => rfl
  · exact fun _ after now cancelled =>
      (cancelled_of_move (move_of_resume after now)).trans cancelled

/-! ## The outcome -/

/-- The only event that ends a cancelled render is the report of the cancellation. -/
theorem event_of_move (move : Move studio render step) (cancelled : render.cancelled = true)
    {event : RenderEvent} (shown : step.signal = .event event) :
    event.isTerminal = false ∨ event = .failed cancelledText := by
  cases move with
  | refused => simp [abandon] at shown
  | launched => simp at shown
  | stuck => simp at shown
  | closed => simp at shown
  | failed => simp [abandon] at shown
  | silent => simp at shown
  | progressed _ _ valid =>
      cases shown
      exact .inl (RenderEvent.isTerminal_of_ofProgress valid)
  | released => simp at shown
  | decided _ decides =>
      cases shown
      cases decides with
      | cancelled => exact .inr rfl
      | succeeded running => simp [cancelled] at running
      | announced => exact .inl rfl
      | lost running => simp [cancelled] at running
  | left => simp at shown
  | idle => simp at shown

/-- Whatever a cancelled render shows, the only terminal event is the report of the
cancellation. -/
theorem events_of_reaches (reached : producer.Reaches studio render events after now)
    (cancelled : render.cancelled = true) :
    ∀ event ∈ events, event.isTerminal = true → event = .failed cancelledText := by
  induction reached with
  | start => simp
  | cancel reached ih => exact ih
  | @resume events after now reached ih =>
      intro event member terminal
      rcases List.mem_append.mp member with old | new
      · exact ih event old terminal
      · have move := move_of_resume after now
        have cancelled := cancelled_of_reaches reached cancelled
        cases signal : (resume after now).signal with
        | event shown =>
            simp only [producer, signal, Signal.events_event, List.mem_singleton] at new
            subst new
            exact (event_of_move move cancelled signal).resolve_left (by simp [terminal])
        | paused => simp [producer, signal] at new
        | stuck => simp [producer, signal] at new
        | ended => simp [producer, signal] at new
        | failed failure => simp [producer, signal, Signal.events] at new

/-- The events of a cancelled render: the report of the cancellation concludes them. -/
def Reported (events : List RenderEvent) (render : SupervisedRender) : Prop :=
  render.cancelled = true ∧
    ((¬render.phase.Concluded ∧ ∀ event ∈ events, event.isTerminal = false) ∨
      (render.phase.Concluded ∧ ∃ earlier, events = earlier ++ [.failed cancelledText] ∧
        ∀ event ∈ earlier, event.isTerminal = false))

theorem Reported.resume (reported : Reported events render)
    (running : (resume studio render).signal ≠ .ended)
    (intact : ∀ failure, (SupervisedRender.resume studio render).signal ≠ .failed failure) :
    Reported (events ++ (SupervisedRender.resume studio render).signal.events)
      (SupervisedRender.resume studio render).state := by
  have move := move_of_resume studio render
  obtain ⟨cancelled, ⟨going, nonterminal⟩ | ⟨done, -⟩⟩ := reported
  · refine ⟨(cancelled_of_move move).trans cancelled, ?_⟩
    have advances := (advances_of_move move going).resolve_right fun ⟨failure, failed⟩ =>
      intact failure failed
    have reports {event : RenderEvent}
        (shown : (SupervisedRender.resume studio render).signal = .event event) :=
      event_of_move move cancelled shown
    generalize (SupervisedRender.resume studio render).signal = signal at advances reports ⊢
    cases advances with
    | onward going _ _ more =>
        refine .inl ⟨going, fun event member => ?_⟩
        rcases List.mem_append.mp member with old | new
        · exact nonterminal event old
        · exact more event new
    | @last event done terminal =>
        have report := (reports rfl).resolve_left (by simp [terminal])
        exact .inr ⟨done, events, by rw [report, Signal.events_event], nonterminal⟩
  · exact absurd (ended_of_move move done) running

/-- Until a run is concluded it has shown no terminal event. -/
theorem nonterminal_of_reaches
    (reached : producer.Reaches start { plan := plan } events after now) :
    ¬now.phase.Concluded → ∀ event ∈ events, event.isTerminal = false := by
  refine reached.invariant (fun events _ now =>
    ¬now.phase.Concluded → ∀ event ∈ events, event.isTerminal = false) ?_ ?_ ?_
  · simp
  · exact fun _ _ _ told => told
  · intro events after now told going event member
    have move := move_of_resume after now
    by_cases done : now.phase.Concluded
    · have ended := ended_of_move move done
      have finished := finished_of_move move (.inl ended)
      exact absurd (show (resume after now).state.phase.Concluded from finished ▸ trivial) going
    · rcases List.mem_append.mp member with old | new
      · exact told done event old
      · have advances := advances_of_move move done
        simp only [producer] at new going
        generalize (resume after now).signal = signal at advances new
        rcases advances with onward | ⟨failure, rfl⟩
        · cases onward with
          | onward _ _ _ nonterminal => exact nonterminal event new
          | last done => exact absurd done going
        · simp [Signal.events] at new

/-- A cancelled render that is not concluded comes to the report of the cancellation and then to
its end, unless a failure leaves it. -/
theorem reported_of_cancelled (cancelled : render.cancelled = true)
    (going : ¬render.phase.Concluded) (nonterminal : ∀ event ∈ events, event.isTerminal = false) :
    ∃ steps more after now,
      producer.play studio render (List.replicate steps .resume) = (more, after, now) ∧
        ((∃ failure, (producer.resume after now).signal = .failed failure) ∨
          ((producer.resume after now).signal = .ended ∧
            ∃ earlier, events ++ more = earlier ++ [.failed cancelledText] ∧
              ∀ event ∈ earlier, event.isTerminal = false)) := by
  have lessens (studio : Studio) (render : SupervisedRender)
      (proceeds : (producer.resume studio render).signal.Proceeds) :
      work (producer.resume studio render).studio (producer.resume studio render).state <
        work studio render :=
    work_of_move (move_of_resume studio render) proceeds.1
  have kept (events : List RenderEvent) (after : Studio) (now : SupervisedRender)
      (reported : Reported events now) (proceeds : (producer.resume after now).signal.Proceeds) :
      Reported (events ++ (producer.resume after now).signal.events)
        (producer.resume after now).state :=
    reported.resume proceeds.1.1 proceeds.2
  obtain ⟨steps, -, more, after, now, played, reported, halted⟩ :=
    producer.halts lessens kept events studio render ⟨cancelled, .inl ⟨going, nonterminal⟩⟩
  refine ⟨steps, more, after, now, played, ?_⟩
  have move := move_of_resume after now
  by_cases failed : ∃ failure, (producer.resume after now).signal = .failed failure
  · exact .inl failed
  · by_cases ended : (producer.resume after now).signal = .ended
    · obtain ⟨-, ⟨going, -⟩ | ⟨-, told⟩⟩ := reported
      · have advances := (advances_of_move move going).resolve_right failed
        have last : (resume after now).signal = .ended := ended
        rw [last] at advances
        cases advances with
        | onward _ running => exact absurd rfl running
      · exact .inr ⟨ended, told⟩
    · have stuck := ne_stuck_of_move move reported.1
      exact absurd ⟨⟨ended, stuck⟩, not_exists.mp failed⟩ halted

/-- A film, and the report that both processes failed, are shown only while a run is not cancelled.
Once it is cancelled, its terminal event can only be the report of the cancellation; and if it has
not come to its end then, it does so with that event, unless a failure leaves it. -/
theorem outcome_of_reaches (reached : producer.Reaches start { plan := plan } events after now) :
    (∀ event, (producer.resume after now).signal = .event event →
        (event.filePath.isSome = true ∨
          ∃ first second, event = .failed (plan.failureReport first second)) →
            now.cancelled = false) ∧
      (now.cancelled = true →
        (∀ more last next, producer.Reaches after now more last next →
          ∀ event ∈ more, event.isTerminal = true → event = .failed cancelledText) ∧
        ((producer.resume after now).signal ≠ .ended →
          ∃ steps more last next,
            producer.play after now (List.replicate steps .resume) = (more, last, next) ∧
              ((∃ failure, (producer.resume last next).signal = .failed failure) ∨
                ((producer.resume last next).signal = .ended ∧
                  ∃ earlier, events ++ more = earlier ++ [.failed cancelledText] ∧
                    ∀ event ∈ earlier, event.isTerminal = false)))) := by
  refine ⟨fun event shown outcome => ?_, fun cancelled => ⟨fun more last next later => ?_, ?_⟩⟩
  · rw [← Bool.not_eq_true]
    intro cancelled
    rcases event_of_move (move_of_resume after now) cancelled shown with nonterminal | rfl
    · rcases outcome with film | ⟨first, second, rfl⟩
      · simp [RenderEvent.isTerminal, film] at nonterminal
      · simp [RenderEvent.isTerminal, RenderEvent.failed] at nonterminal
    · rcases outcome with film | ⟨first, second, report⟩
      · simp [RenderEvent.failed] at film
      · have texts := congrArg RenderEvent.error report
        exact failureReport_ne_cancelledText plan first second (Option.some.inj texts).symm
  · exact events_of_reaches later cancelled
  · intro running
    have going : ¬now.phase.Concluded := fun done =>
      running (ended_of_move (move_of_resume after now) done)
    exact reported_of_cancelled cancelled going (nonterminal_of_reaches reached going)

/-- A cancellation while the first process is waited for. -/
def waitingCancel : List Turn := [.resume, .resume, .cancel]

/-- A studio where the process has ended by itself, without an error, before it can be killed. -/
def swiftStudio : Studio where
  launches := [.started { ended := true }]

theorem outcome_waitingCancel :
    ∃ events after now,
      producer.Reaches swiftStudio { plan := samplePlan } events after now ∧
        now.cancelled = true ∧ (producer.resume after now).signal ≠ .ended ∧
        .ended 0 0 ∈ (producer.resume after now).studio.journal ∧
        ∃ steps more last next,
          producer.play after now (List.replicate steps .resume) = (more, last, next) ∧
            ((∃ failure, (producer.resume last next).signal = .failed failure) ∨
              ((producer.resume last next).signal = .ended ∧
                ∃ earlier, events ++ more = earlier ++ [.failed cancelledText] ∧
                  ∀ event ∈ earlier, event.isTerminal = false)) := by
  have reached := producer.reaches_play swiftStudio { plan := samplePlan } waitingCancel
  have cancelled :
      (producer.play swiftStudio { plan := samplePlan } waitingCancel).2.2.cancelled = true := rfl
  have running : (producer.resume
      (producer.play swiftStudio { plan := samplePlan } waitingCancel).2.1
      (producer.play swiftStudio { plan := samplePlan } waitingCancel).2.2).signal ≠ .ended := by
    decide +kernel
  refine ⟨_, _, _, reached, cancelled, running, ?_,
    ((outcome_of_reaches reached).2 cancelled).2 running⟩
  decide +kernel

/-! ## The second process -/

section Submissions

variable (studio : Studio) (arguments : List String) (path : Option String)

theorem submissions_record {effect : Effect} (plain : effect.request? = none) :
    submissions (studio.record effect).journal = submissions studio.journal :=
  submissions_plain studio.journal plain

theorem submissions_removeScript :
    submissions (studio.removeScript path).journal = submissions studio.journal := by
  rcases (studio.removes_removeScript path).journal with journal | ⟨effect, deletion, journal⟩
  · rw [journal]
  · rw [journal, submissions_plain _ deletion.plain]

theorem submissions_watch (attempt : Attempt) (cancelled : Bool) :
    submissions (attempt.watch cancelled studio).1.journal = submissions studio.journal := by
  simp only [Attempt.watch]
  split
  · exact submissions_record studio rfl
  · rfl

theorem submissions_submit : submissions (studio.submit arguments).2.journal =
    submissions studio.journal ++ [arguments] := by
  cases outcome : (studio.submit arguments).1 with
  | error failure =>
      rw [Studio.submit_journal_of_error studio arguments outcome, submissions_submitted]
  | ok started =>
      rw [Studio.submit_journal_of_ok studio arguments outcome, List.append_cons,
        submissions_plain _ rfl, submissions_submitted]

end Submissions

/-- Only what a render starts next is asked for. -/
theorem submissions_of_move (move : Move studio render step) :
    submissions step.studio.journal = submissions studio.journal ∨
      ∃ arguments role, render.Starts arguments role ∧
        submissions step.studio.journal = submissions studio.journal ++ [arguments] := by
  cases move with
  | @refused arguments role _ starts =>
      refine .inr ⟨arguments, role, starts, ?_⟩
      simp only [abandon]
      rw [submissions_removeScript, submissions_submit]
  | @launched arguments role _ _ starts =>
      exact .inr ⟨arguments, role, starts, submissions_submit studio arguments⟩
  | stuck => exact .inl (submissions_watch ..)
  | closed => exact .inl (submissions_watch ..)
  | failed =>
      simp only [abandon]
      rw [submissions_removeScript, submissions_record _ rfl, submissions_watch]
      exact .inl rfl
  | silent => exact .inl (submissions_watch ..)
  | progressed => exact .inl (submissions_watch ..)
  | released => exact .inl rfl
  | decided =>
      simp only [present, settle]
      rw [submissions_removeScript, submissions_record _ rfl, submissions_watch]
      exact .inl rfl
  | left => exact .inl (submissions_removeScript ..)
  | idle => exact .inl rfl

/-- A cancelled render does not come to announce the second process. -/
theorem phase_of_move (move : Move studio render step) (cancelled : render.cancelled = true) :
    step.state.phase ≠ .ready ∧ ∀ result, step.state.phase ≠ .announced result := by
  cases move with
  | refused => simp [abandon]
  | launched => simp
  | stuck => simp
  | closed => simp
  | failed => simp [abandon]
  | silent => simp
  | progressed => simp [present]
  | released => simp
  | decided _ decides =>
      cases decides with
      | cancelled => simp [present]
      | succeeded => simp [present]
      | announced running => simp [cancelled] at running
      | lost => simp [present]
  | left => simp
  | idle phase => simp [phase]

/-- What a render that was cancelled before has asked for since then: nothing, or the first process
if it had not begun. -/
structure Restrained (studio : Studio) (render : SupervisedRender) (after : Studio)
    (now : SupervisedRender) : Prop where
  plan : now.plan = render.plan
  unannounced : ∀ result, now.phase ≠ .announced result
  unbegun : now.phase = .ready →
    render.phase = .ready ∧ submissions after.journal = submissions studio.journal
  asked : submissions after.journal = submissions studio.journal ∨
    (render.phase = .ready ∧ submissions after.journal =
      submissions studio.journal ++ [render.plan.primaryArguments])

theorem Restrained.resume (restrained : Restrained studio render after now)
    (cancelled : now.cancelled = true) :
    Restrained studio render (SupervisedRender.resume after now).studio
      (SupervisedRender.resume after now).state := by
  have move := move_of_resume after now
  obtain ⟨begun, unannounced⟩ := phase_of_move move cancelled
  refine ⟨(plan_of_move move).trans restrained.plan, unannounced, ?_, ?_⟩
  · exact fun ready => absurd ready begun
  · rcases submissions_of_move move with same | ⟨arguments, role, starts, more⟩
    · rw [same]
      exact restrained.asked
    · cases starts with
      | primary phase =>
          obtain ⟨ready, none⟩ := restrained.unbegun phase
          exact .inr ⟨ready, by rw [more, none, restrained.plan]⟩
      | fallback phase => exact absurd phase (restrained.unannounced _)

/-- After a cancellation nothing is asked for but the first process, unless the second one is
announced. -/
theorem restrained_of_reaches (reached : producer.Reaches studio render events after now)
    (cancelled : render.cancelled = true)
    (unannounced : ∀ result, render.phase ≠ .announced result) :
    Restrained studio render after now := by
  induction reached with
  | start => exact ⟨rfl, unannounced, fun ready => ⟨ready, rfl⟩, .inl rfl⟩
  | cancel reached ih => exact ⟨ih.plan, ih.unannounced, ih.unbegun, ih.asked⟩
  | resume reached ih => exact ih.resume (cancelled_of_reaches reached cancelled)

/-- If a run is cancelled before its second process was asked for, it is never asked for, unless
the client holds the note that announces it. -/
theorem unasked_of_cancelled (reached : producer.Reaches start { plan := plan } events after now)
    (cancelled : now.cancelled = true) (unannounced : ∀ result, now.phase ≠ .announced result)
    (unasked : submissions (start.effectsSince after) ≠
      [plan.primaryArguments, plan.fallbackArguments])
    (later : producer.Reaches after now more last next) :
    submissions (start.effectsSince last) ≠ [plan.primaryArguments, plan.fallbackArguments] := by
  obtain ⟨rfl, chronicled⟩ := chronicled_of_reaches reached
  have ordered := (chronicled_of_reaches (reached.trans later)).2.orderly
  have before := Studio.submissions_journal chronicled.orderly.grown
  have behind := Studio.submissions_journal ordered.grown
  rcases (restrained_of_reaches later cancelled unannounced).asked with same | ⟨ready, first⟩
  · rw [behind, before, List.append_cancel_left_eq] at same
    rw [same]
    exact unasked
  · rw [ready] at chronicled
    cases chronicled with
    | ready poised =>
        rw [behind, before, poised.asked, List.append_nil, List.append_cancel_left_eq] at first
        simp [first]

/-- A run can be cancelled before its second process was asked for, and yet ask for it. -/
theorem asked_though_cancelled :
    ∃ events after now more last next,
      producer.Reaches sampleStudio { plan := samplePlan } events after now ∧
        now.cancelled = true ∧
        submissions (sampleStudio.effectsSince after) = [samplePlan.primaryArguments] ∧
        producer.Reaches after now more last next ∧
        submissions (sampleStudio.effectsSince last) =
          [samplePlan.primaryArguments, samplePlan.fallbackArguments] := by
  have reached := producer.reaches_play sampleStudio { plan := samplePlan }
    [.resume, .resume, .resume, .cancel]
  refine ⟨_, _, _, _, _, _, reached, rfl, ?_, producer.reaches_play _ _ [.resume], ?_⟩
  · decide +kernel
  · decide +kernel

theorem unasked_waitingCancel :
    ∃ events after now more last next,
      producer.Reaches sampleStudio { plan := samplePlan } events after now ∧
        now.cancelled = true ∧ producer.Reaches after now more last next ∧
        (producer.resume last next).signal = .ended ∧
        submissions (sampleStudio.effectsSince last) ≠
          [samplePlan.primaryArguments, samplePlan.fallbackArguments] := by
  have reached := producer.reaches_play sampleStudio { plan := samplePlan } waitingCancel
  have phase : ∀ result,
      (producer.play sampleStudio { plan := samplePlan } waitingCancel).2.2.phase ≠
        .announced result := by
    intro result
    exact Supervision.noConfusion
  have unasked : submissions (sampleStudio.effectsSince
      (producer.play sampleStudio { plan := samplePlan } waitingCancel).2.1) ≠
        [samplePlan.primaryArguments, samplePlan.fallbackArguments] := by
    decide +kernel
  have later := producer.reaches_play
    (producer.play sampleStudio { plan := samplePlan } waitingCancel).2.1
    (producer.play sampleStudio { plan := samplePlan } waitingCancel).2.2 [.resume]
  refine ⟨_, _, _, _, _, _, reached, rfl, later, ?_,
    unasked_of_cancelled reached rfl phase unasked later⟩
  decide +kernel

end SupervisedRender

end Montage
