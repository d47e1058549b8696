import Montage.Proofs.Progress
import Montage.Proofs.Render.Termination

/-!
# Renders that nobody disturbs

A render that is neither cancelled nor given up, and whose processes start, write and end, shows
what can be said in closed form: the percentages that the output of the first process leads to,
and then the film, or the note that the black film follows and what becomes of that.
-/

namespace Montage

/-- A text holds parts, each behind the one before it. -/
def Text.HoldsInOrder : List String → String → Prop
  | [], _ => True
  | part :: parts, text =>
      ∃ before after, text = before ++ part ++ after ∧ HoldsInOrder parts after

namespace Text.HoldsInOrder

variable {part text : String} {parts : List String}

theorem skip (before : String) (holds : HoldsInOrder parts text) :
    HoldsInOrder parts (before ++ text) := by
  cases parts with
  | nil => trivial
  | cons part parts =>
      obtain ⟨earlier, after, rfl, rest⟩ := holds
      exact ⟨before ++ earlier, after, by simp only [String.append_assoc], rest⟩

theorem take (holds : HoldsInOrder parts text) : HoldsInOrder (part :: parts) (part ++ text) :=
  ⟨"", text, by rw [String.empty_append], holds⟩

theorem last (part : String) : HoldsInOrder [part] part :=
  ⟨"", "", by rw [String.empty_append, String.append_empty], trivial⟩

end Text.HoldsInOrder

/-- The report of two failures holds what is known of the first one and then what is known of the
second one. -/
theorem RenderPlan.holdsInOrder_failureReport (plan : RenderPlan)
    (primary fallback : AttemptResult) :
    Text.HoldsInOrder
      [toString primary.exitCode, commandLine plan.binaryName primary.arguments, primary.output,
        toString fallback.exitCode, commandLine plan.binaryName fallback.arguments,
        fallback.output]
      (plan.failureReport primary fallback) := by
  delta failureReport
  simp only [String.append_assoc]
  exact .skip _ <| .take <| .skip _ <| .skip _ <| .take <| .skip _ <| .skip _ <| .take <|
    .skip _ <| .skip _ <| .take <| .skip _ <| .skip _ <| .take <| .skip _ <| .skip _ <| .last _

/-- A process that writes pieces, closes its output and ends with a code. -/
structure Process.Writes (process : Process) (pieces : List String) (code : Int) : Prop where
  chunks : process.chunks = pieces.map .text
  exitCode : process.exitCode = code
  closes : process.hangs = false
  unkilled : process.killed = false

namespace Process

variable {process : Process} {piece : String} {pieces : List String} {code : Int}

/-- The process once other pieces are left to be written. -/
def leaving (process : Process) (pieces : List String) : Process :=
  { process with chunks := pieces.map .text }

theorem Writes.leaving (writes : process.Writes pieces code) (rest : List String) :
    (process.leaving rest).Writes rest code :=
  ⟨rfl, writes.exitCode, writes.closes, writes.unkilled⟩

theorem Writes.leaving_self (writes : process.Writes pieces code) :
    process.leaving pieces = process := by
  rw [Process.leaving, ← writes.chunks]

theorem Writes.read_nil (writes : process.Writes [] code) : process.read = .closed := by
  simp [read, stopped, writes.chunks, writes.closes, writes.unkilled]

theorem Writes.read_cons (writes : process.Writes (piece :: pieces) code) :
    process.read = .text piece (process.leaving pieces) := by
  simp [read, stopped, writes.chunks, writes.unkilled, Process.leaving]

theorem Writes.code_eq (writes : process.Writes pieces code) : process.code = code := by
  simp [Process.code, stopped, writes.unkilled, writes.exitCode]

end Process

/-! ## Reading to the end -/

/-- What a stream shows up to its end, and where it stands then. -/
inductive Producer.Drains {σ : Type} (producer : Producer σ) :
    Studio → σ → List RenderEvent → σ → Prop where
  | ended {studio after : Studio} {state last : σ}
      (step : producer.resume studio state = ⟨after, last, .ended⟩) :
      Drains producer studio state [] last
  | paused {studio after : Studio} {state next last : σ} {events : List RenderEvent}
      (step : producer.resume studio state = ⟨after, next, .paused⟩)
      (rest : Drains producer after next events last) :
      Drains producer studio state events last
  | event {studio after : Studio} {state next last : σ} {shown : RenderEvent}
      {events : List RenderEvent}
      (step : producer.resume studio state = ⟨after, next, .event shown⟩)
      (rest : Drains producer after next events last) :
      Drains producer studio state (shown :: events) last

/-- A client that only reads receives all that a stream shows, if it takes enough steps. -/
theorem Producer.Drains.readFrom {σ : Type} {producer : Producer σ} {work : Studio → σ → Nat}
    (lessens : ∀ studio state, (producer.resume studio state).signal.Goes →
      work (producer.resume studio state).studio (producer.resume studio state).state <
        work studio state)
    {studio : Studio} {state last : σ} {events : List RenderEvent}
    (drains : producer.Drains studio state events last) {steps : Nat}
    (enough : work studio state < steps) (count : Nat) :
    (producer.readFrom {} count studio state steps).events = events ∧
      (producer.readFrom {} count studio state steps).state = last ∧
      (producer.readFrom {} count studio state steps).failure = none := by
  induction drains generalizing steps count with
  | ended step =>
      cases steps with
      | zero => omega
      | succ steps => simp [Producer.readFrom, step]
  | @paused studio after state next last events step rest ih =>
      cases steps with
      | zero => omega
      | succ steps =>
          have less := lessens studio state (by simp [step, Signal.Goes])
          simp only [step] at less
          simpa [Producer.readFrom, step] using ih (by omega) count
  | @event studio after state next last shown events step rest ih =>
      cases steps with
      | zero => omega
      | succ steps =>
          have less := lessens studio state (by simp [step, Signal.Goes])
          simp only [step] at less
          have read := ih (show work after next < steps by omega) (count + 1)
          simpa [Producer.readFrom, step, Producer.cancelAt] using read

/-! ## What a process tells -/

/-- What becomes of a role when pieces are heard, with the percentages that are reported. -/
inductive AttemptRole.Hears : AttemptRole → List String → AttemptRole → List Binary64 → Prop where
  | done (role : AttemptRole) : Hears role [] role []
  | ignored {primary : AttemptResult} {piece : String} {pieces : List String}
      {last : AttemptRole} {reports : List Binary64}
      (rest : Hears (.fallback primary) pieces last reports) :
      Hears (.fallback primary) (piece :: pieces) last reports
  | unreported {parser next : ProgressParser} {piece : String} {pieces : List String}
      {last : AttemptRole} {reports : List Binary64}
      (fed : parser.feed piece.toList = .ok (next, none))
      (rest : Hears (.primary next) pieces last reports) :
      Hears (.primary parser) (piece :: pieces) last reports
  | reported {parser next : ProgressParser} {percent : Binary64} {piece : String}
      {pieces : List String} {last : AttemptRole} {reports : List Binary64}
      (fed : parser.feed piece.toList = .ok (next, some percent))
      (valid : RenderEvent.ofProgress percent = .ok (.percentage percent))
      (rest : Hears (.primary next) pieces last reports) :
      Hears (.primary parser) (piece :: pieces) last (percent :: reports)

/-- The second process tells no progress. -/
theorem AttemptRole.hears_fallback (primary : AttemptResult) (pieces : List String) :
    Hears (.fallback primary) pieces (.fallback primary) [] := by
  induction pieces with
  | nil => exact .done _
  | cons piece rest ih => exact .ignored ih

/-- The first process tells the percentages that its pieces lead to. -/
theorem AttemptRole.hears_primary {parser : ProgressParser} (sound : parser.Sound)
    (pieces : List String) :
    ∃ last reports, parser.feedAll pieces = .ok (last, reports) ∧
      Hears (.primary parser) pieces (.primary last) reports := by
  induction pieces generalizing parser with
  | nil => exact ⟨parser, [], rfl, .done _⟩
  | cons piece rest ih =>
      obtain ⟨next, report, fed, sound, valid⟩ := sound.feed piece.toList
      obtain ⟨last, reports, collected, hears⟩ := ih sound
      refine ⟨last, report.toList ++ reports, ?_, ?_⟩
      · simp only [ProgressParser.feedAll, fed, bind, Except.bind, collected]
        rfl
      · cases report with
        | none => exact .unreported fed hears
        | some percent => exact .reported fed (valid percent rfl) hears

/-! ## Supervised renders -/

namespace Attempt

/-- The attempt once pieces are heard and others are left to be written. -/
def having (attempt : Attempt) (heard rest : List String) (role : AttemptRole) : Attempt :=
  { attempt with
    process := attempt.process.leaving rest
    written := attempt.written ++ heard
    role := role }

@[simp] theorem having_having (attempt : Attempt) (heard rest heard' rest' : List String)
    (role role' : AttemptRole) :
    (attempt.having heard rest role).having heard' rest' role' =
      attempt.having (heard ++ heard') rest' role' := by
  simp only [having, Process.leaving, List.append_assoc]

end Attempt

/-- What is shown when the processes tell the given percentages and end as given. -/
def RenderPlan.story (plan : RenderPlan) (reports : List Binary64)
    (primary fallback : AttemptResult) : List RenderEvent :=
  reports.map .percentage ++
    if primary.exitCode = 0 then [.finished plan.output]
    else
      .note (fallbackNote primary) ::
        if fallback.exitCode = 0 then [.finished plan.output]
        else [.failed (plan.failureReport primary fallback)]

namespace SupervisedRender

variable {studio : Studio} {render : SupervisedRender} {attempt : Attempt}
variable {piece : String} {pieces : List String} {code : Int} {events : List RenderEvent}
variable {finish : SupervisedRender}

/-- Without a cancellation nobody intervenes in a process. -/
theorem watch_of_calm (calm : render.cancelled = false) :
    attempt.watch render.cancelled studio = (studio, attempt) := by
  simp [Attempt.watch, calm]

/-- A process that has closed its output is waited for. -/
theorem resume_of_closed (calm : render.cancelled = false)
    (writes : attempt.process.Writes [] code) :
    resume studio { render with phase := .reading attempt } =
      { studio := studio
        state := { render with phase := .waiting attempt }
        signal := .paused } := by
  simp only [resume, read, watch_of_calm calm, writes.read_nil]

/-- A piece without a percentage is kept. -/
theorem resume_of_silence {next : AttemptRole} (calm : render.cancelled = false)
    (writes : attempt.process.Writes (piece :: pieces) code)
    (taken : attempt.take piece (attempt.process.leaving pieces) =
      .ok (attempt.having [piece] pieces next, none)) :
    resume studio { render with phase := .reading attempt } =
      { studio := studio
        state := { render with phase := .reading (attempt.having [piece] pieces next) }
        signal := .paused } := by
  simp only [resume, read, watch_of_calm calm, writes.read_cons, taken]

/-- A piece with a percentage is kept and reported. -/
theorem resume_of_report {next : AttemptRole} {percent : Binary64}
    (calm : render.cancelled = false)
    (writes : attempt.process.Writes (piece :: pieces) code)
    (taken : attempt.take piece (attempt.process.leaving pieces) =
      .ok (attempt.having [piece] pieces next, some percent))
    (valid : RenderEvent.ofProgress percent = .ok (.percentage percent)) :
    resume studio { render with phase := .reading attempt } =
      render.present studio (.reported (attempt.having [piece] pieces next))
        (.percentage percent) := by
  simp only [resume, read, watch_of_calm calm, writes.read_cons, taken, valid, present]

/-- The end of a process decides what follows. -/
theorem resume_of_waiting (calm : render.cancelled = false) :
    resume studio { render with phase := .waiting attempt } =
      render.conclude (render.settle studio attempt) attempt.role attempt.result := by
  simp only [resume, await, watch_of_calm calm]
  rfl

/-- The output of a process is heard piece by piece, and then its end is awaited. -/
theorem drains_of_hears {role last : AttemptRole} {reports : List Binary64}
    (hears : role.Hears pieces last reports) (calm : render.cancelled = false)
    (writes : attempt.process.Writes pieces code) (acts : attempt.role = role)
    (rest : producer.Drains studio
      { render with phase := .waiting (attempt.having pieces [] last) } events finish) :
    producer.Drains studio { render with phase := .reading attempt }
      (reports.map .percentage ++ events) finish := by
  induction hears generalizing attempt with
  | done role =>
      have same : attempt.having [] [] role = attempt := by
        rw [Attempt.having, writes.leaving_self, List.append_nil, ← acts]
      rw [same] at rest
      exact .paused (resume_of_closed calm writes) rest
  | @ignored primary piece pieces last reports hears ih =>
      have taken : attempt.take piece (attempt.process.leaving pieces) =
          .ok (attempt.having [piece] pieces (.fallback primary), none) := by
        simp only [Attempt.take, acts]
        rfl
      refine .paused (resume_of_silence calm writes taken) (ih (writes.leaving _) rfl ?_)
      rwa [Attempt.having_having]
  | @unreported parser next piece pieces last reports fed hears ih =>
      have taken : attempt.take piece (attempt.process.leaving pieces) =
          .ok (attempt.having [piece] pieces (.primary next), none) := by
        simp only [Attempt.take, acts, fed]
        rfl
      refine .paused (resume_of_silence calm writes taken) (ih (writes.leaving _) rfl ?_)
      rwa [Attempt.having_having]
  | @reported parser next percent piece pieces last reports fed valid hears ih =>
      have taken : attempt.take piece (attempt.process.leaving pieces) =
          .ok (attempt.having [piece] pieces (.primary next), some percent) := by
        simp only [Attempt.take, acts, fed]
        rfl
      refine .event (resume_of_report calm writes taken valid)
        (.paused rfl (ih (writes.leaving _) rfl ?_))
      rwa [Attempt.having_having]

/-- A process that is started, heard and waited for. What the render decides at its end follows
the percentages. -/
theorem drains_of_starts {arguments : List String} {role last : AttemptRole}
    {reports : List Binary64} {process : Process} {later : List Launch} {phase : Supervision}
    {event : RenderEvent} (starts : render.Starts arguments role)
    (calm : render.cancelled = false) (launches : studio.launches = .started process :: later)
    (writes : process.Writes pieces code) (hears : role.Hears pieces last reports)
    (concludes : ∀ studio, render.conclude studio last ⟨arguments, code, String.join pieces⟩ =
      render.present studio phase event)
    (rest : ∀ after : Studio, after.launches = later →
      producer.Drains after { render with phase := phase } events finish) :
    producer.Drains studio render (reports.map .percentage ++ event :: events) finish := by
  have submitted : ∃ number after, studio.submit arguments = (.ok (number, process), after) ∧
      after.launches = later := by
    simp only [Studio.submit, launches]
    exact ⟨_, _, rfl, rfl⟩
  obtain ⟨number, after, submitted, left⟩ := submitted
  have started : resume studio render =
      { studio := after
        state :=
          { render with
            phase := .reading
              { number := number, arguments := arguments, process := process, role := role } }
        signal := .paused } := by
    cases starts with
    | primary phase => simp only [resume, phase, start, submitted]
    | fallback phase => simp only [resume, phase, start, submitted]
  refine .paused started (drains_of_hears hears calm writes rfl ?_)
  generalize attemptEq : ({
    number := number, arguments := arguments, process := process, role := role } : Attempt).having
      pieces [] last = attempt
  have result : attempt.result = ⟨arguments, code, String.join pieces⟩ := by
    simp only [← attemptEq, Attempt.result, Attempt.having, (writes.leaving []).code_eq,
      List.nil_append]
  have role' : attempt.role = last := by rw [← attemptEq, Attempt.having]
  have decided : resume after { render with phase := .waiting attempt } =
      render.present (render.settle after attempt) phase event := by
    rw [resume_of_waiting calm, role', result, concludes]
  refine .event decided (rest _ ?_)
  rw [settle, Studio.removeScript_launches, Studio.record_launches, left]

/-- A render that has shown its last event ends. -/
theorem drains_of_concluded (render : SupervisedRender) (studio : Studio) :
    producer.Drains studio { render with phase := .concluded } []
      { render with phase := .finished } :=
  .ended rfl

/-- A render whose processes end as given shows its story. -/
theorem drains_story (plan : RenderPlan) {first second : List String} {code code' : Int}
    {primary fallback : Process} {later : List Launch} {last : ProgressParser}
    {reports : List Binary64}
    (launches : studio.launches = .started primary :: .started fallback :: later)
    (writes : primary.Writes first code) (writes' : fallback.Writes second code')
    (hears : AttemptRole.Hears (.primary { fallbackDuration := plan.duration }) first
      (.primary last) reports) :
    ∃ last, last.phase = .finished ∧
      producer.Drains studio { plan := plan }
        (plan.story reports ⟨plan.primaryArguments, code, String.join first⟩
          ⟨plan.fallbackArguments, code', String.join second⟩) last := by
  refine ⟨{ plan := plan, phase := .finished }, rfl, ?_⟩
  simp only [RenderPlan.story]
  by_cases succeeded : code = 0
  · rw [if_pos succeeded]
    exact drains_of_starts (.primary rfl) rfl launches writes hears
      (fun studio => by simp [conclude, succeeded])
      (fun after _ => drains_of_concluded _ after)
  · rw [if_neg succeeded]
    let lost : AttemptResult := ⟨plan.primaryArguments, code, String.join first⟩
    have announces (studio : Studio) :
        SupervisedRender.conclude { plan := plan } studio (.primary last) lost =
          SupervisedRender.present { plan := plan } studio (.announced lost)
            (.note (fallbackNote lost)) := by
      simp [conclude, lost, succeeded]
    refine drains_of_starts (.primary rfl) rfl launches writes hears announces
      fun after launches => ?_
    have hears' := AttemptRole.hears_fallback lost second
    by_cases succeeded' : code' = 0
    · rw [if_pos succeeded']
      exact drains_of_starts (.fallback rfl) rfl launches writes' hears'
        (fun studio => by simp [conclude, succeeded'])
        (fun after _ => drains_of_concluded _ after)
    · rw [if_neg succeeded']
      exact drains_of_starts (.fallback rfl) rfl launches writes' hears'
        (fun studio => by simp [conclude, lost, succeeded'])
        (fun after _ => drains_of_concluded _ after)

/-- A render that nobody disturbs, whose processes write pieces and end with codes, is read to its
end without a failure. It shows the percentages that the pieces of the first process lead to, and
then the film, or the note and the film or a report that holds all that is known of both. -/
theorem read_undisturbed (plan : RenderPlan) (studio : Studio) {first second : List String}
    {code code' : Int} {primary fallback : Process} {later : List Launch}
    (measures : ∀ duration ∈ plan.duration, duration.MeasuresFilm)
    (launches : studio.launches = .started primary :: .started fallback :: later)
    (writes : primary.Writes first code) (writes' : fallback.Writes second code') :
    ∃ parser reports,
      ({ fallbackDuration := plan.duration } : ProgressParser).feedAll first =
          .ok (parser, reports) ∧
        let lost : AttemptResult := ⟨plan.primaryArguments, code, String.join first⟩
        let lost' : AttemptResult := ⟨plan.fallbackArguments, code', String.join second⟩
        let received := producer.read {} studio { plan := plan }
        received.failure = none ∧ received.state.phase = .finished ∧
          received.events = plan.story reports lost lost' ∧
          Text.HoldsInOrder
            [toString code, commandLine plan.binaryName plan.primaryArguments, String.join first,
              toString code', commandLine plan.binaryName plan.fallbackArguments,
              String.join second]
            (plan.failureReport lost lost') := by
  obtain ⟨parser, reports, collected, hears⟩ :=
    AttemptRole.hears_primary (ProgressParser.sound_start measures) first
  obtain ⟨last, finished, drains⟩ := drains_story plan launches writes writes' hears
  have lessens (studio : Studio) (render : SupervisedRender)
      (goes : (producer.resume studio render).signal.Goes) :
      work (producer.resume studio render).studio (producer.resume studio render).state <
        work studio render :=
    work_of_move (move_of_resume studio render) goes
  have enough : studio.work + 1 < studio.stepBound := by
    have bound := studio.work_add_le_stepBound
    omega
  obtain ⟨events, state, failure⟩ := drains.readFrom lessens enough 0
  exact ⟨parser, reports, collected, failure, (congrArg phase state).trans finished, events,
    plan.holdsInOrder_failureReport _ _⟩

/-- A plan with a length that counts until the renderer names another one. -/
def measuredPlan : RenderPlan where
  primaryArguments := ["-i", "picture.png", "film.mp4"]
  fallbackArguments := ["-i", "black", "film.mp4"]
  output := "film.mp4"
  duration := some 20

/-- What a process writes that names the length and a position, each broken by the end of a
piece. -/
def brokenWords : List String :=
  ["Duration: 00:00:1", "0.00 time=00:00:0", "5.00"]

/-- A studio where both processes fail. -/
def failingStudio : Studio where
  launches :=
    [.started { chunks := brokenWords.map .text, exitCode := 1 },
      .started { chunks := [.text "time=00:00:09.00"], exitCode := 2 }]

theorem read_brokenWords :
    (producer.read {} failingStudio { plan := measuredPlan }).events =
      [.percentage 50,
        .note "Complex render failed with code 1. Trying fallback render (black video)...",
        .failed (measuredPlan.failureReport
          ⟨measuredPlan.primaryArguments, 1, "Duration: 00:00:10.00 time=00:00:05.00"⟩
          ⟨measuredPlan.fallbackArguments, 2, "time=00:00:09.00"⟩)] := by
  have measures : ∀ duration ∈ measuredPlan.duration, duration.MeasuresFilm := by
    intro duration known
    cases known
    exact ⟨20, by decide +kernel, by decide +kernel⟩
  have writes : Process.Writes { chunks := brokenWords.map .text, exitCode := 1 } brokenWords 1 :=
    ⟨rfl, rfl, rfl, rfl⟩
  have writes' : Process.Writes { chunks := [.text "time=00:00:09.00"], exitCode := 2 }
      ["time=00:00:09.00"] 2 :=
    ⟨rfl, rfl, rfl, rfl⟩
  obtain ⟨parser, reports, collected, -, -, events, -⟩ :=
    read_undisturbed measuredPlan failingStudio measures rfl writes writes'
  have half : ((ProgressParser.feedAll { fallbackDuration := some 20 } brokenWords).toOption.map
      Prod.snd) = some [50] := by
    decide +kernel
  have collected : ProgressParser.feedAll { fallbackDuration := some 20 } brokenWords =
    .ok (parser, reports) := collected
  rw [collected] at half
  cases half
  rw [events]
  rfl

end SupervisedRender

end Montage
