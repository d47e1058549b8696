import Montage.Proofs.Render.Session
import Montage.Proofs.Render.SingleFlight
import Montage.Render.Http

/-!
# Who is let in

A studio that streams share turns a render away exactly while one of them is aloft. A stream is
aloft until its client asks for what follows the terminal event, or gives the stream up. Until
then it keeps the gate, although nothing of its render is left, and whoever comes meanwhile is
turned away.
-/

namespace Montage

namespace Flight

/-- The stream has not begun. -/
def Waits (flight : Flight) : Prop :=
  flight.stream.phase = .ready

/-- The client of the stream has received its terminal event. -/
def Delivered (flight : Flight) : Prop :=
  ∃ event ∈ flight.events, event.isTerminal = true

variable {studio : Studio} {flight : Flight}

/-- Until it is over a stream shows its terminal event last and once. -/
def Tells (flight : Flight) : Prop :=
  flight.done = false → RenderStream.Told flight.events flight.stream

theorem Tells.resume (tells : flight.Tells) (studio : Studio) :
    (flight.resume studio).2.Tells := by
  intro going
  have before : flight.done = false := (Bool.or_eq_false_iff.mp going).1
  exact (tells before).resume studio

/-- A stream that waits asks for the gate with its next step. -/
theorem Logged.resume_of_waits (logged : Logged studio flight) (waits : flight.Waits) :
    if studio.gate.busy then (flight.resume studio).2.acquired = some false
    else (flight.resume studio).2.Aloft := by
  have going : flight.done = false := by
    cases logged with
    | waiting _ _ going => exact going
    | withdrawn _ phase => cases waits.symm.trans phase
    | turned _ phase => rcases phase with phase | phase <;> cases waits.symm.trans phase
    | aloft _ entered => exact absurd waits entered.ne_ready
    | landed _ _ phase => cases waits.symm.trans phase
  split
  next busy => rw [resume_of_busy waits busy]
  next free =>
    obtain ⟨event, entering⟩ := resume_of_free waits (Bool.not_eq_true _ ▸ free)
    rw [entering]
    exact ⟨rfl, going⟩

/-- A stream that has shown its terminal event leaves nothing running, and leaves the gate free
with its next step or when it is given up. -/
theorem Logged.landing (logged : Logged studio flight) (tells : flight.Tells)
    (aloft : flight.Aloft) (delivered : flight.Delivered) :
    (∀ number, ¬LeftRunning number flight.effects) ∧
      (flight.resume studio).1.gate.busy = false ∧ (flight.close studio).1.gate.busy = false := by
  obtain ⟨event, shown, terminal⟩ := delivered
  have done : flight.stream.phase.Concluded := by
    rcases tells aloft.2 with ⟨-, onward⟩ | ⟨done, -⟩
    · rw [onward event shown] at terminal
      contradiction
    · exact done
  cases logged with
  | waiting acquired => simp [acquired, Aloft] at aloft
  | withdrawn acquired => simp [acquired, Aloft] at aloft
  | turned acquired => simp [acquired, Aloft] at aloft
  | landed _ ended => simp [ended, Aloft] at aloft
  | aloft _ entered tidy effects =>
      refine ⟨?_, ?_, RenderStream.close_of_entered entered⟩
      · rw [← effects]
        exact (RenderStream.settled_of_concluded tidy done).processes
      · have move := RenderStream.move_of_resume studio flight.stream
        have ended := (RenderStream.ended_of_move move done).1
        rcases RenderStream.entered_of_move move entered with ⟨-, going, -⟩ | ⟨-, -, free⟩
        · rw [ended] at going
          contradiction
        · exact free

end Flight

/-! ## Requests -/

/-- A request over HTTP is rejected exactly while the gate is taken. -/
theorem answerRender_rejected {order : RenderOrder} {studio : Studio} :
    (answerRender order studio).1 = .rejected (.ofKind .inProgress) ↔ studio.gate.busy = true := by
  simp only [answerRender]
  split
  next busy => simp [busy]
  next free => simp [free]

namespace SharedStudio

variable {ι : Type} [DecidableEq ι] {studio : Studio} {orders : ι → RenderOrder}
variable {shared : SharedStudio ι}

theorem tells_of_reaches (reached : Reaches studio orders shared) (i : ι) :
    (shared.flights i).Tells := by
  induction reached with
  | start => exact fun _ => .inl ⟨not_false, by simp [opening]⟩
  | resume _ j ih =>
      by_cases same : i = j
      · subst same
        rw [resume, flights_update_self]
        exact ih.resume _
      · rw [resume, flights_update_of_ne same]
        exact ih
  | close _ j ih =>
      by_cases same : i = j
      · subst same
        rw [close, flights_update_self]
        intro going
        contradiction
      · rw [close, flights_update_of_ne same]
        exact ih
  | cancel _ j ih =>
      by_cases same : i = j
      · subst same
        rw [cancel, flights_update_self]
        exact ih
      · rw [cancel, flights_update_of_ne same]
        exact ih
  | under _ _ _ ih => exact ih

/-- Whom a studio lets in that streams share. -/
structure Admits (shared : SharedStudio ι) : Prop where
  /-- If every stream that took the gate has ended or was given up, none is aloft. -/
  landed : (∀ i, (shared.flights i).acquired = some true → (shared.flights i).done = true) →
    ∀ i, ¬(shared.flights i).Aloft
  /-- While none is aloft, a stream that asks for the gate gets it, a request over HTTP is answered
  and a session renders what its client asks for. -/
  admitted : (∀ i, ¬(shared.flights i).Aloft) →
    (∀ i, (shared.flights i).Waits → ((shared.resume i).flights i).Aloft) ∧
      (∀ order, (answerRender order shared.studio).1 ≠ .rejected (.ofKind .inProgress)) ∧
      ∀ connection orders first later report,
        Session.Serves connection shared.studio orders first later report →
          ∀ payload, Session.requestOf first = .render payload →
            Session.Rendered shared.studio (orders payload) (connection.failing.map (·.1)) report
  /-- Whoever is turned away comes while a stream is aloft. -/
  turned : (∃ i, (shared.flights i).Waits ∧
      ((shared.resume i).flights i).acquired = some false) ∨
        (∃ order, (answerRender order shared.studio).1 = .rejected (.ofKind .inProgress)) →
      ∃ i, (shared.flights i).Aloft
  /-- A stream whose client has received the terminal event has nothing running. It is aloft until
  the client asks for what follows, or gives the stream up; then none is. -/
  delivered : ∀ i, (shared.flights i).Aloft → (shared.flights i).Delivered →
    (∀ number, ¬LeftRunning number (shared.flights i).effects) ∧
      (∀ j, ¬((shared.resume i).flights j).Aloft) ∧ ∀ j, ¬((shared.close i).flights j).Aloft

/-- However the steps of streams are interleaved, whoever comes is turned away only while one of
them is aloft. -/
theorem admits_of_reaches (free : studio.gate.busy = false)
    (reached : Reaches studio orders shared) : Admits shared := by
  have ruled := ruled_of_reaches free reached
  have grounded {other : SharedStudio ι} (reached : Reaches studio orders other)
      (free' : other.studio.gate.busy = false) (j : ι) : ¬(other.flights j).Aloft := by
    intro aloft
    rw [(ruled_of_reaches free reached).busy.mpr ⟨j, aloft⟩] at free'
    contradiction
  refine ⟨?_, ?_, ?_, ?_⟩
  · rintro landed i ⟨acquired, going⟩
    rw [landed i acquired] at going
    contradiction
  · intro none
    have unheld : shared.studio.gate.busy = false := by
      rw [← Bool.not_eq_true, ruled.busy]
      exact fun ⟨i, aloft⟩ => none i aloft
    refine ⟨fun i waits => ?_, fun order rejected => ?_, ?_⟩
    · have asks := (ruled.logged i).resume_of_waits waits
      rw [unheld] at asks
      rw [resume, flights_update_self]
      exact asks
    · rw [answerRender_rejected, unheld] at rejected
      contradiction
    · intro connection orders first later report serves payload valid
      exact (Session.served_of_serves serves).rendered payload valid unheld
  · intro turned
    apply ruled.busy.mp
    rcases turned with ⟨i, waits, refused⟩ | ⟨order, rejected⟩
    · by_contra unheld
      have asks := (ruled.logged i).resume_of_waits waits
      rw [if_neg unheld] at asks
      rw [resume, flights_update_self, asks.1] at refused
      contradiction
    · exact answerRender_rejected.mp rejected
  · intro i aloft delivered
    obtain ⟨processes, resumed, closed⟩ :=
      (ruled.logged i).landing (tells_of_reaches reached i) aloft delivered
    exact ⟨processes, grounded (reached.resume i) resumed, grounded (reached.close i) closed⟩

/-! ## After the last event -/

theorem Reaches.foldl_resume (reached : Reaches studio orders shared) (turns : List ι) :
    Reaches studio orders (turns.foldl SharedStudio.resume shared) := by
  induction turns generalizing shared with
  | nil => exact reached
  | cons i rest ih => exact ih (reached.resume i)

/-- A studio with one process, which succeeds. -/
def finishingStudio : Studio where
  launches := [.started {}]

/-- Two streams. The client of the first one has received its film, and the second one waits. -/
def deliveredFlights : SharedStudio Bool :=
  (List.replicate 6 true).foldl resume (opening finishingStudio fun _ => RenderStream.sampleOrder)

theorem reaches_deliveredFlights :
    Reaches finishingStudio (fun _ => RenderStream.sampleOrder) deliveredFlights :=
  Reaches.start.foldl_resume _

theorem standing_deliveredFlights :
    (deliveredFlights.flights true).Aloft ∧ (deliveredFlights.flights true).Delivered ∧
      (deliveredFlights.flights false).Waits := by
  have facts : ((deliveredFlights.flights true).acquired = some true ∧
      (deliveredFlights.flights true).done = false) ∧
        (∃ event ∈ (deliveredFlights.flights true).events, event.isTerminal = true) := by
    decide +kernel
  exact ⟨facts.1, facts.2, rfl⟩

/-- The second stream gets the gate once the first one is asked for what follows. -/
theorem admits_deliveredFlights :
    Admits deliveredFlights ∧
      (((deliveredFlights.resume true).resume false).flights false).Aloft := by
  obtain ⟨aloft, delivered, waits⟩ := standing_deliveredFlights
  have admits := admits_of_reaches rfl reaches_deliveredFlights
  have grounded := (admits.delivered true aloft delivered).2.1
  have admits' := admits_of_reaches rfl (reaches_deliveredFlights.resume true)
  refine ⟨admits, (admits'.admitted grounded).1 false ?_⟩
  rw [resume, flights_update_of_ne (by decide)]
  exact waits

/-- Every stream that took the gate has shown its terminal event, and yet whoever comes is turned
away, because its client has not asked for what follows. -/
theorem turned_though_delivered :
    ∃ shared : SharedStudio Bool,
      Reaches finishingStudio (fun _ => RenderStream.sampleOrder) shared ∧
        (∀ i, (shared.flights i).acquired = some true → (shared.flights i).Delivered) ∧
        (shared.flights false).Waits ∧
        ((shared.resume false).flights false).acquired = some false ∧
        (∀ order, (answerRender order shared.studio).1 = .rejected (.ofKind .inProgress)) ∧
        ∀ connection orders first later report payload,
          Session.Serves connection shared.studio orders first later report →
            Session.requestOf first = .render payload →
              Session.TurnedAway connection shared.studio ErrorKind.inProgress.message report := by
  obtain ⟨aloft, delivered, waits⟩ := standing_deliveredFlights
  have ruled := ruled_of_reaches rfl reaches_deliveredFlights
  have busy := ruled.busy.mpr ⟨true, aloft⟩
  refine ⟨_, reaches_deliveredFlights, ?_, waits, ?_, ?_, ?_⟩
  · intro i acquired
    cases i with
    | true => exact delivered
    | false =>
        have unasked : (deliveredFlights.flights false).acquired = none := rfl
        rw [unasked] at acquired
        contradiction
  · have asks := (ruled.logged false).resume_of_waits waits
    rw [if_pos busy] at asks
    rw [resume, flights_update_self]
    exact asks
  · exact fun order => answerRender_rejected.mpr busy
  · intro connection orders first later report payload serves valid
    exact (Session.served_of_serves serves).busy payload valid busy

end SharedStudio

end Montage
