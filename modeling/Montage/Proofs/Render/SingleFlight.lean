import Montage.Proofs.Render.Gate

/-!
# One render at a time

Any number of streams may share a studio, and their steps come in any order. The gate is taken
exactly while one of them is aloft: it was given the gate and has neither ended nor been given up.
A stream that is not aloft leaves the studio as it is, so that whatever runs is run by the one
that is aloft.
-/

namespace Montage

/-! ## Streams among others -/

/-- A stream among others, with what it was told, has shown and has done so far. -/
structure Flight where
  stream : RenderStream
  /-- Whether the stream was given the gate, once it has asked for it. -/
  acquired : Option Bool := none
  /-- Whether the stream has ended or was given up. -/
  done : Bool := false
  events : List RenderEvent := []
  effects : List Effect := []

namespace Flight

/-- The stream is between its taking the gate and its end. -/
def Aloft (flight : Flight) : Prop :=
  flight.acquired = some true ∧ flight.done = false

/-- What the stream knows of the gate after a step: its first step asks for it. -/
def answer (flight : Flight) (studio : Studio) : Option Bool :=
  match flight.stream.phase with
  | .ready => some studio.gate.acquire.1
  | _ => flight.acquired

/-- The stream goes on to its next pause or event. -/
def resume (studio : Studio) (flight : Flight) : Studio × Flight :=
  let step := RenderStream.resume studio flight.stream
  (step.studio,
    { stream := step.state
      acquired := flight.answer studio
      done := flight.done || step.signal.isLast
      events := flight.events ++ step.signal.events
      effects := flight.effects ++ studio.effectsSince step.studio })

/-- The stream is given up. -/
def close (studio : Studio) (flight : Flight) : Studio × Flight :=
  let closed := RenderStream.close studio flight.stream
  (closed.1,
    { flight with
      stream := closed.2
      done := true
      effects := flight.effects ++ studio.effectsSince closed.1 })

/-- The stream is asked to stop. -/
def cancel (flight : Flight) : Flight :=
  { flight with stream := flight.stream.cancel }

/-- What a stream that shares a studio can look like. It has touched nothing before it takes the
gate, nor if it is turned away, and leaves nothing running when it is over. -/
inductive Logged (studio : Studio) (flight : Flight) : Prop where
  | waiting (acquired : flight.acquired = none) (phase : flight.stream.phase = .ready)
      (going : flight.done = false) (events : flight.events = []) (effects : flight.effects = [])
  | withdrawn (acquired : flight.acquired = none) (phase : flight.stream.phase = .finished)
      (effects : flight.effects = [])
  | turned (acquired : flight.acquired = some false)
      (phase : flight.stream.phase = .rejected ∨ flight.stream.phase = .finished)
      (events : flight.events = [rejectionEvent]) (effects : flight.effects = [])
  | aloft {start : Studio} (aloft : flight.Aloft) (entered : flight.stream.phase.Entered)
      (tidy : Tidy start studio flight.stream.phase)
      (effects : start.effectsSince studio = flight.effects)
  | landed (acquired : flight.acquired = some true) (done : flight.done = true)
      (phase : flight.stream.phase = .finished)
      (effects : ∀ number, ¬LeftRunning number flight.effects)

/-- How a stream passes the gate, or not. -/
inductive Passage (studio : Studio) (flight : Flight) (next : Studio × Flight) : Prop where
  | aside (outside : ¬flight.Aloft) (still : ¬next.2.Aloft) (same : next.1 = studio)
  | enters (free : studio.gate.busy = false) (aloft : next.2.Aloft)
      (taken : next.1.gate.busy = true)
  | stays (aloft : flight.Aloft) (still : next.2.Aloft) (same : next.1.gate = studio.gate)
  | leaves (aloft : flight.Aloft) (outside : ¬next.2.Aloft) (free : next.1.gate.busy = false)

/-- What a step of one stream may do among others. -/
structure Passes (studio : Studio) (flight : Flight) (next : Studio × Flight) : Prop where
  logged : Logged next.1 next.2
  passage : Passage studio flight next
  grown : studio.journal <+: next.1.journal
  effects : next.2.effects = flight.effects ++ studio.effectsSince next.1

variable {studio after : Studio} {flight : Flight}

theorem Logged.not_aloft_of_phase (logged : Logged studio flight)
    (outside : ¬flight.stream.phase.Entered) : ¬flight.Aloft := by
  rintro ⟨acquired, going⟩
  cases logged with
  | waiting acquired' => simp [acquired] at acquired'
  | withdrawn acquired' => simp [acquired] at acquired'
  | turned acquired' => simp [acquired] at acquired'
  | aloft aloft entered => exact outside entered
  | landed _ done => simp [going] at done

theorem Logged.aloft_of_phase (logged : Logged studio flight)
    (entered : flight.stream.phase.Entered) :
    flight.Aloft ∧ ∃ start, Tidy start studio flight.stream.phase ∧
      start.effectsSince studio = flight.effects := by
  cases logged with
  | waiting _ phase => simp [phase, StreamPhase.Entered] at entered
  | withdrawn _ phase => simp [phase, StreamPhase.Entered] at entered
  | turned _ phase =>
      rcases phase with phase | phase <;> simp [phase, StreamPhase.Entered] at entered
  | aloft aloft _ tidy effects => exact ⟨aloft, _, tidy, effects⟩
  | landed _ _ phase => simp [phase, StreamPhase.Entered] at entered

/-- Where a stream that is not aloft stands does not depend on the studio. -/
theorem Logged.of_not_aloft (logged : Logged studio flight) (outside : ¬flight.Aloft) :
    Logged after flight := by
  cases logged with
  | waiting acquired phase going events effects =>
      exact .waiting acquired phase going events effects
  | withdrawn acquired phase effects => exact .withdrawn acquired phase effects
  | turned acquired phase events effects => exact .turned acquired phase events effects
  | aloft aloft => exact absurd aloft outside
  | landed acquired done phase effects => exact .landed acquired done phase effects

/-- A stream that stays out of the gate does nothing that others see. -/
theorem passes_aside {next : Flight} (outside : ¬flight.Aloft) (still : ¬next.Aloft)
    (logged : Logged studio next) (effects : next.effects = flight.effects) :
    Passes studio flight (studio, next) where
  logged := logged
  passage := .aside outside still rfl
  grown := List.prefix_rfl
  effects := by rw [Studio.effectsSince_self, List.append_nil, effects]

/-! ### Steps -/

theorem answer_of_begun (begun : flight.stream.phase ≠ .ready) :
    flight.answer studio = flight.acquired := by
  simp only [answer]

theorem resume_of_busy (phase : flight.stream.phase = .ready) (busy : studio.gate.busy = true) :
    flight.resume studio =
      (studio,
        { flight with
          stream := { flight.stream with phase := .rejected }
          acquired := some false
          events := flight.events ++ [rejectionEvent] }) := by
  simp [resume, answer, RenderStream.resume, RenderStream.enter, RenderStream.present,
    RenderGate.acquire, Studio.effectsSince_self, Signal.isLast, phase, busy]

theorem resume_of_free (phase : flight.stream.phase = .ready) (free : studio.gate.busy = false) :
    ∃ event,
      flight.resume studio =
        ({ studio with gate := { busy := true } },
          { flight with
            stream := { flight.stream with phase := .greeted }
            acquired := some true
            events := flight.events ++ [event] }) := by
  refine ⟨{ progress := some 0, message := some "Starting render process..." }, ?_⟩
  simp [resume, answer, RenderStream.resume, RenderStream.enter, RenderStream.present,
    RenderGate.acquire, Studio.effectsSince, Signal.isLast, phase, free]

/-- A stream that was turned away or has ended comes to its end at once. -/
theorem resume_of_outside
    (phase : flight.stream.phase = .rejected ∨ flight.stream.phase = .finished) :
    flight.resume studio =
      (studio,
        { flight with stream := { flight.stream with phase := .finished }, done := true }) := by
  have ended : RenderStream.resume studio flight.stream =
      { studio := studio
        state := { flight.stream with phase := .finished }
        signal := .ended } := by
    rcases phase with phase | phase
    · simp only [RenderStream.resume, phase]
    · simp only [RenderStream.resume, phase]
      rw [← phase]
  have begun : flight.stream.phase ≠ .ready := by
    rintro ready
    simp [ready] at phase
  simp [resume, answer_of_begun begun, ended, Studio.effectsSince_self, Signal.isLast]

theorem close_of_not_entered (outside : ¬flight.stream.phase.Entered) :
    flight.close studio =
      (studio,
        { flight with stream := { flight.stream with phase := .finished }, done := true }) := by
  simp only [close, RenderStream.close_of_not_entered outside, RenderStream.close_phase,
    Studio.effectsSince_self, List.append_nil]

/-- A stream that does not hold the gate comes to its end. -/
theorem Logged.finish (logged : Logged studio flight) (outside : ¬flight.stream.phase.Entered) :
    Passes studio flight
      (studio,
        { flight with stream := { flight.stream with phase := .finished }, done := true }) := by
  refine passes_aside (logged.not_aloft_of_phase outside) (by simp [Aloft]) ?_ rfl
  cases logged with
  | waiting acquired phase going events effects => exact .withdrawn acquired rfl effects
  | withdrawn acquired phase effects => exact .withdrawn acquired rfl effects
  | turned acquired phase events effects => exact .turned acquired (.inr rfl) events effects
  | aloft aloft entered => exact absurd entered outside
  | landed acquired done phase effects => exact .landed acquired rfl rfl effects

/-- A stream that holds the gate comes to its end and leaves the gate free. -/
theorem passes_landing {start : Studio} {next : Studio × Flight} (aloft : flight.Aloft)
    (tidy : Tidy start studio flight.stream.phase)
    (effects : start.effectsSince studio = flight.effects)
    (last : Tidy start next.1 next.2.stream.phase) (grown : studio.journal <+: next.1.journal)
    (more : next.2.effects = flight.effects ++ studio.effectsSince next.1)
    (acquired : next.2.acquired = some true) (done : next.2.done = true)
    (phase : next.2.stream.phase = .finished) (free : next.1.gate.busy = false) :
    Passes studio flight next := by
  rw [phase] at last
  have settled := (RenderStream.released_of_tidy last).processes
  rw [Studio.effectsSince_trans tidy.grown grown, effects, ← more] at settled
  refine ⟨.landed acquired done phase settled, .leaves aloft ?_ free, grown, more⟩
  simp [Aloft, done]

/-- A stream that holds the gate goes on holding it, or comes to its end. -/
theorem Logged.resume_of_entered (logged : Logged studio flight)
    (entered : flight.stream.phase.Entered) : Passes studio flight (flight.resume studio) := by
  obtain ⟨aloft, start, tidy, effects⟩ := logged.aloft_of_phase entered
  have move := RenderStream.move_of_resume studio flight.stream
  have next := RenderStream.tidy_of_move tidy move
  have grown := RenderStream.grown_of_move move entered
  have acquired : (flight.resume studio).2.acquired = some true :=
    (answer_of_begun entered.ne_ready).trans aloft.1
  rcases RenderStream.entered_of_move move entered with
    ⟨entered, going, gate⟩ | ⟨phase, ended, free⟩
  · have still : (flight.resume studio).2.Aloft := by
      refine ⟨acquired, ?_⟩
      simp [Flight.resume, aloft.2, going]
    refine ⟨.aloft still entered next ?_, .stays aloft still gate, grown, rfl⟩
    simp only [Flight.resume]
    rw [Studio.effectsSince_trans tidy.grown grown, effects]
  · refine passes_landing aloft tidy effects next grown rfl acquired ?_ phase free
    simp [Flight.resume, ended, Signal.isLast]

/-- A stream that has not begun takes the gate if it is free, and is turned away if not. -/
theorem Logged.resume_of_ready (logged : Logged studio flight)
    (ready : flight.stream.phase = .ready) : Passes studio flight (flight.resume studio) := by
  cases logged with
  | waiting acquired _ going events effects =>
      have outside : ¬flight.Aloft := by simp [Aloft, acquired]
      cases gate : studio.gate.busy with
      | true =>
          rw [resume_of_busy ready gate]
          refine passes_aside outside (by simp [Aloft]) ?_ rfl
          exact .turned rfl (.inl rfl) (by rw [events, List.nil_append]) effects
      | false =>
          obtain ⟨event, entering⟩ := resume_of_free ready gate
          rw [entering]
          refine ⟨.aloft ⟨rfl, going⟩ trivial (.greeted gate rfl rfl) ?_,
            .enters gate ⟨rfl, going⟩ rfl, List.prefix_rfl, ?_⟩
          · exact (Studio.effectsSince_self studio).trans effects.symm
          · simp [Studio.effectsSince]
  | withdrawn _ phase => simp [ready] at phase
  | turned _ phase => simp [ready] at phase
  | aloft _ entered => simp [ready, StreamPhase.Entered] at entered
  | landed _ _ phase => simp [ready] at phase

theorem Logged.resume (logged : Logged studio flight) :
    Passes studio flight (flight.resume studio) := by
  by_cases entered : flight.stream.phase.Entered
  · exact logged.resume_of_entered entered
  · rcases StreamPhase.not_entered_iff.mp entered with ready | outside
    · exact logged.resume_of_ready ready
    · rw [resume_of_outside outside]
      exact logged.finish entered

/-- A stream that is given up leaves the gate free if it holds it, and else as it is. -/
theorem Logged.close (logged : Logged studio flight) :
    Passes studio flight (flight.close studio) := by
  by_cases entered : flight.stream.phase.Entered
  · obtain ⟨aloft, start, tidy, effects⟩ := logged.aloft_of_phase entered
    refine passes_landing aloft tidy effects ?_ (RenderStream.grown_close entered) rfl aloft.1 rfl
      ?_ (RenderStream.close_of_entered entered)
    · simp only [Flight.close, RenderStream.close_phase]
      exact RenderStream.tidy_close tidy
    · simp only [Flight.close, RenderStream.close_phase]
  · rw [close_of_not_entered entered]
    exact logged.finish entered

/-- A stream that is asked to stop does so only when it goes on. -/
theorem Logged.cancel (logged : Logged studio flight) :
    Passes studio flight (studio, flight.cancel) := by
  refine ⟨?_, ?_, List.prefix_rfl, ?_⟩
  · cases logged with
    | waiting acquired phase going events effects =>
        exact .waiting acquired phase going events effects
    | withdrawn acquired phase effects => exact .withdrawn acquired phase effects
    | turned acquired phase events effects => exact .turned acquired phase events effects
    | aloft aloft entered tidy effects => exact .aloft aloft entered tidy effects
    | landed acquired done phase effects => exact .landed acquired done phase effects
  · by_cases aloft : flight.Aloft
    · exact .stays aloft aloft rfl
    · exact .aside aloft aloft rfl
  · rw [Studio.effectsSince_self, List.append_nil]
    rfl

/-- Other circumstances for processes and writes change nothing that a stream has been told or
has done. -/
theorem Logged.under (logged : Logged studio flight) (launches : List Launch)
    (scripts : ScriptDirectory) : Logged (studio.under launches scripts) flight := by
  by_cases entered : flight.stream.phase.Entered
  · obtain ⟨aloft, start, tidy, effects⟩ := logged.aloft_of_phase entered
    obtain ⟨start', tidy, same⟩ := tidy.under entered launches scripts
    exact .aloft aloft entered tidy (same.trans effects)
  · exact logged.of_not_aloft (logged.not_aloft_of_phase entered)

/-- Of what a stream has done at most one process is left running, and none unless it is aloft. -/
theorem Logged.running (logged : Logged studio flight) {number : Nat}
    (running : LeftRunning number flight.effects) :
    flight.Aloft ∧ ∀ other, LeftRunning other flight.effects → number = other := by
  have idle (effects : flight.effects = []) : False := by
    rw [effects] at running
    exact LeftRunning.not_nil running
  cases logged with
  | waiting _ _ _ _ effects => exact (idle effects).elim
  | withdrawn _ _ effects => exact (idle effects).elim
  | turned _ _ _ effects => exact (idle effects).elim
  | aloft aloft _ tidy effects =>
      rw [← effects] at running ⊢
      exact ⟨aloft, fun other left => tidy.unique_running running left⟩
  | landed _ _ _ effects => exact absurd running (effects number)

/-- A stream that is turned away, or was, touches nothing. -/
theorem Logged.untouched (logged : Logged studio flight)
    (turned : (flight.resume studio).2.acquired = some false) :
    (flight.resume studio).1 = studio ∧ (flight.close studio).1 = studio := by
  have outside : ¬flight.stream.phase.Entered := by
    intro entered
    have aloft := (logged.aloft_of_phase entered).1.1
    have same : (flight.resume studio).2.acquired = flight.acquired :=
      answer_of_begun entered.ne_ready
    rw [same, aloft] at turned
    contradiction
  refine ⟨?_, by rw [close_of_not_entered outside]⟩
  rcases StreamPhase.not_entered_iff.mp outside with ready | outside
  · cases gate : studio.gate.busy with
    | true => rw [resume_of_busy ready gate]
    | false =>
        obtain ⟨event, entering⟩ := resume_of_free ready gate
        simp [entering] at turned
  · rw [resume_of_outside outside]

end Flight

/-! ## Streams that share a studio -/

/-- A studio and the streams that share it. -/
structure SharedStudio (ι : Type) where
  studio : Studio
  flights : ι → Flight

namespace SharedStudio

/-- A studio and streams that have not begun. -/
def opening {ι : Type} (studio : Studio) (orders : ι → RenderOrder) : SharedStudio ι :=
  { studio := studio, flights := fun i => { stream := { order := orders i } } }

/-! ### The invariant -/

section Invariant

variable {ι : Type}

/-- The invariant of streams that share a studio. -/
structure Ruled (start : Studio) (shared : SharedStudio ι) : Prop where
  logged : ∀ i, (shared.flights i).Logged shared.studio
  busy : shared.studio.gate.busy = true ↔ ∃ i, (shared.flights i).Aloft
  single : ∀ i j, (shared.flights i).Aloft → (shared.flights j).Aloft → i = j
  grown : start.journal <+: shared.studio.journal
  attributed : ∀ number, LeftRunning number (start.effectsSince shared.studio) →
    ∃ i, LeftRunning number (shared.flights i).effects

variable {start : Studio} {shared : SharedStudio ι} {i : ι} {next : Studio × Flight}

/-- Either a stream touches nothing and is not aloft, or no other stream is aloft and the gate is
taken exactly if this one is. -/
theorem Ruled.aside_or_alone (ruled : Ruled start shared)
    (passage : (shared.flights i).Passage shared.studio next) :
    (next.1 = shared.studio ∧ ¬(shared.flights i).Aloft ∧ ¬next.2.Aloft) ∨
      ((∀ j, j ≠ i → ¬(shared.flights j).Aloft) ∧ (next.1.gate.busy = true ↔ next.2.Aloft)) := by
  cases passage with
  | aside outside still same => exact .inl ⟨same, outside, still⟩
  | enters free aloft taken =>
      refine .inr ⟨fun j _ flying => ?_, by simp [aloft, taken]⟩
      rw [ruled.busy.mpr ⟨j, flying⟩] at free
      contradiction
  | stays aloft still same =>
      refine .inr ⟨fun j other flying => other (ruled.single j i flying aloft), ?_⟩
      simp [same, still, ruled.busy.mpr ⟨i, aloft⟩]
  | leaves aloft outside free =>
      refine .inr ⟨fun j other flying => other (ruled.single j i flying aloft), ?_⟩
      simp [outside, free]

/-- Other circumstances for processes and writes keep the invariant. -/
theorem Ruled.under (ruled : Ruled start shared) (launches : List Launch)
    (scripts : ScriptDirectory) :
    Ruled start { shared with studio := shared.studio.under launches scripts } where
  logged := fun i => (ruled.logged i).under launches scripts
  busy := ruled.busy
  single := ruled.single
  grown := ruled.grown
  attributed := ruled.attributed

theorem Ruled.opening (orders : ι → RenderOrder) (free : start.gate.busy = false) :
    Ruled start (opening start orders) where
  logged := fun i => .waiting rfl rfl rfl rfl rfl
  busy := by simp [SharedStudio.opening, free, Flight.Aloft]
  single := by simp [SharedStudio.opening, Flight.Aloft]
  grown := List.prefix_rfl
  attributed := by
    intro number left
    simp only [SharedStudio.opening, Studio.effectsSince_self] at left
    exact absurd left LeftRunning.not_nil

end Invariant

/-! ### Runs -/

variable {ι : Type} [DecidableEq ι]

/-- One of the streams has worked on the studio. -/
def update (shared : SharedStudio ι) (i : ι) (next : Studio × Flight) : SharedStudio ι :=
  { studio := next.1, flights := Function.update shared.flights i next.2 }

def resume (shared : SharedStudio ι) (i : ι) : SharedStudio ι :=
  shared.update i ((shared.flights i).resume shared.studio)

def close (shared : SharedStudio ι) (i : ι) : SharedStudio ι :=
  shared.update i ((shared.flights i).close shared.studio)

def cancel (shared : SharedStudio ι) (i : ι) : SharedStudio ι :=
  shared.update i (shared.studio, (shared.flights i).cancel)

/-- What streams that share a studio can come to, in any order of their steps. -/
inductive Reaches (studio : Studio) (orders : ι → RenderOrder) : SharedStudio ι → Prop where
  | start : Reaches studio orders (opening studio orders)
  | resume {shared : SharedStudio ι} (reached : Reaches studio orders shared) (i : ι) :
      Reaches studio orders (shared.resume i)
  | close {shared : SharedStudio ι} (reached : Reaches studio orders shared) (i : ι) :
      Reaches studio orders (shared.close i)
  | cancel {shared : SharedStudio ι} (reached : Reaches studio orders shared) (i : ι) :
      Reaches studio orders (shared.cancel i)
  | under {shared : SharedStudio ι} (reached : Reaches studio orders shared)
      (launches : List Launch) (scripts : ScriptDirectory) :
      Reaches studio orders { shared with studio := shared.studio.under launches scripts }

section Update

variable {start : Studio} {shared : SharedStudio ι} {i j : ι} {next : Studio × Flight}

theorem flights_update_self : (shared.update i next).flights i = next.2 :=
  Function.update_self ..

theorem flights_update_of_ne (other : j ≠ i) :
    (shared.update i next).flights j = shared.flights j :=
  Function.update_of_ne other ..

/-- The other streams see that nothing was done, or do not look at the studio. -/
theorem Ruled.logged_update (ruled : Ruled start shared)
    (passes : (shared.flights i).Passes shared.studio next) (j : ι) :
    ((shared.update i next).flights j).Logged next.1 := by
  by_cases same : j = i
  · rw [same, flights_update_self]
    exact passes.logged
  · rw [flights_update_of_ne same]
    rcases ruled.aside_or_alone passes.passage with ⟨unchanged, -⟩ | ⟨alone, -⟩
    · rw [unchanged]
      exact ruled.logged j
    · exact (ruled.logged j).of_not_aloft (alone j same)

/-- A process that is left running was started by the stream that has worked, or was running and
is not settled. -/
theorem Ruled.attributed_update (ruled : Ruled start shared)
    (passes : (shared.flights i).Passes shared.studio next) {number : Nat}
    (left : LeftRunning number (start.effectsSince next.1)) :
    ∃ j, LeftRunning number ((shared.update i next).flights j).effects := by
  rw [Studio.effectsSince_trans ruled.grown passes.grown, LeftRunning.append] at left
  rcases left with new | ⟨old, unsettled⟩
  · refine ⟨i, ?_⟩
    rw [flights_update_self, passes.effects]
    exact LeftRunning.append.mpr (.inl new)
  · obtain ⟨j, running⟩ := ruled.attributed number old
    refine ⟨j, ?_⟩
    by_cases same : j = i
    · subst same
      rw [flights_update_self, passes.effects]
      exact LeftRunning.append.mpr (.inr ⟨running, unsettled⟩)
    · rw [flights_update_of_ne same]
      exact running

/-- What one stream does keeps the invariant of all. -/
theorem Ruled.update (ruled : Ruled start shared)
    (passes : (shared.flights i).Passes shared.studio next) :
    Ruled start (shared.update i next) := by
  have logged := ruled.logged_update passes
  have grown := ruled.grown.trans passes.grown
  rcases ruled.aside_or_alone passes.passage with ⟨unchanged, outside, still⟩ | ⟨alone, gate⟩
  · -- Those that are aloft are the same as before.
    have aloft (j : ι) : ((shared.update i next).flights j).Aloft ↔ (shared.flights j).Aloft := by
      by_cases same : j = i
      · subst same
        simp [flights_update_self, outside, still]
      · rw [flights_update_of_ne same]
    refine ⟨logged, ?_, ?_, grown, fun _ => ruled.attributed_update passes⟩
    · simp only [aloft]
      exact (unchanged ▸ ruled.busy : next.1.gate.busy = true ↔ _)
    · simp only [aloft]
      exact ruled.single
  · -- None is aloft, unless it is the one that has worked.
    have aloft (j : ι) : ((shared.update i next).flights j).Aloft ↔ j = i ∧ next.2.Aloft := by
      by_cases same : j = i
      · subst same
        simp [flights_update_self]
      · simp [flights_update_of_ne same, alone j same, same]
    refine ⟨logged, ?_, ?_, grown, fun _ => ruled.attributed_update passes⟩
    · simp only [aloft, exists_eq_left]
      exact gate
    · simp only [aloft]
      rintro j k ⟨rfl, -⟩ ⟨rfl, -⟩
      rfl

end Update

variable {studio : Studio} {orders : ι → RenderOrder} {shared : SharedStudio ι}

theorem ruled_of_reaches (free : studio.gate.busy = false)
    (reached : Reaches studio orders shared) : Ruled studio shared := by
  induction reached with
  | start => exact .opening orders free
  | resume reached i ih => exact ih.update (ih.logged i).resume
  | close reached i ih => exact ih.update (ih.logged i).close
  | cancel reached i ih => exact ih.update (ih.logged i).cancel
  | under reached launches scripts ih => exact ih.under launches scripts

/-- At most one of the streams that share a studio renders. -/
structure SingleFlight (start : Studio) (shared : SharedStudio ι) : Prop where
  /-- The gate is taken exactly while a stream is between taking it and its end. -/
  busy : shared.studio.gate.busy = true ↔ ∃ i, (shared.flights i).Aloft
  single : ∀ i j, (shared.flights i).Aloft → (shared.flights j).Aloft → i = j
  /-- Only a stream that is aloft has left a process running, and it has left one at most. -/
  processes : ∀ i j number other, LeftRunning number (shared.flights i).effects →
    LeftRunning other (shared.flights j).effects →
      (shared.flights i).Aloft ∧ i = j ∧ number = other
  /-- Whatever runs was left running by one of the streams. -/
  attributed : ∀ number, LeftRunning number (start.effectsSince shared.studio) →
    ∃ i, LeftRunning number (shared.flights i).effects
  /-- A stream that was not given the gate has shown one event and done nothing. -/
  rejected : ∀ i, (shared.flights i).acquired = some false →
    (shared.flights i).events = [rejectionEvent] ∧ (shared.flights i).effects = []
  /-- Nor does it do anything when it is refused the gate, goes on or is given up. -/
  untouched : ∀ i, ((shared.resume i).flights i).acquired = some false →
    (shared.resume i).studio = shared.studio ∧ (shared.close i).studio = shared.studio

/-- However the steps of streams are interleaved, at most one of them renders. -/
theorem singleFlight_of_reaches (free : studio.gate.busy = false)
    (reached : Reaches studio orders shared) : SingleFlight studio shared := by
  have ruled := ruled_of_reaches free reached
  refine ⟨ruled.busy, ruled.single, ?_, ruled.attributed, ?_, ?_⟩
  · intro i j number other left left'
    obtain ⟨aloft, unique⟩ := (ruled.logged i).running left
    have same := ruled.single i j aloft ((ruled.logged j).running left').1
    subst same
    exact ⟨aloft, rfl, unique other left'⟩
  · intro i turned
    cases ruled.logged i with
    | waiting acquired => simp [turned] at acquired
    | withdrawn acquired => simp [turned] at acquired
    | turned _ _ events effects => exact ⟨events, effects⟩
    | aloft aloft => simp [turned, Flight.Aloft] at aloft
    | landed acquired => simp [turned] at acquired
  · intro i turned
    rw [resume, flights_update_self] at turned
    exact (ruled.logged i).untouched turned

/-- Two streams. The second one asks for the gate while the first one renders. -/
def sampleFlights : SharedStudio Bool :=
  [true, false, true, true, true].foldl resume
    (opening RenderStream.sampleStudio fun _ => RenderStream.sampleOrder)

theorem singleFlight_sampleFlights :
    (sampleFlights.flights true).Aloft ∧ LeftRunning 0 (sampleFlights.flights true).effects ∧
      (sampleFlights.flights false).acquired = some false ∧
      SingleFlight RenderStream.sampleStudio sampleFlights := by
  have reached : Reaches RenderStream.sampleStudio (fun _ => RenderStream.sampleOrder)
      sampleFlights :=
    .resume (.resume (.resume (.resume (.resume .start true) false) true) true) true
  have facts : ((sampleFlights.flights true).acquired = some true ∧
      (sampleFlights.flights true).done = false) ∧
        (sampleFlights.flights true).effects.getLast? = some (.started 0) ∧
        (sampleFlights.flights false).acquired = some false := by
    decide +kernel
  obtain ⟨aloft, last, turned⟩ := facts
  obtain ⟨earlier, effects⟩ := List.getLast?_eq_some_iff.mp last
  refine ⟨aloft, ?_, turned, singleFlight_of_reaches rfl reached⟩
  rw [effects]
  exact LeftRunning.append_singleton.mpr (.inl rfl)

end SharedStudio

end Montage
