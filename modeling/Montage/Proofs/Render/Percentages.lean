import Montage.Proofs.Progress
import Montage.Proofs.Render.Cleanup

/-!
# The percentages that a stream shows

A stream that has taken the gate shows zero first, then ever greater percentages up to hundred,
and none once it has announced the black film. The first process alone can report percentages, and
what it reported last is known from the phase.
-/

namespace Montage

/-- The percentages that events carry. -/
def percentages (events : List RenderEvent) : List Binary64 :=
  events.filterMap (·.progress)

@[simp] theorem percentages_append (events more : List RenderEvent) :
    percentages (events ++ more) = percentages events ++ percentages more :=
  List.filterMap_append

theorem percentages_plain {event : RenderEvent} (plain : event.progress = none) :
    percentages [event] = [] := by
  rw [percentages, List.filterMap_cons_none plain, List.filterMap_nil]

theorem percentages_percentage (percent : Binary64) :
    percentages [.percentage percent] = [percent] := rfl

/-- The event announces the black film. -/
def RenderEvent.Announces (event : RenderEvent) : Prop :=
  ∃ result, event = .note (fallbackNote result)

/-- A note that starts in another way does not announce the black film. -/
theorem RenderEvent.not_announces_note {start rest : String} (character : Char)
    (head : start.toList.head? = some character) (other : character ≠ 'C') :
    ¬(note (start ++ rest)).Announces := by
  rintro ⟨result, equal⟩
  obtain ⟨more, opening⟩ : ∃ more, fallbackNote result =
      "Complex render failed with code " ++ more := by
    -- The equation of the note takes too long to derive.
    delta fallbackNote
    rw [String.append_assoc]
    exact ⟨_, rfl⟩
  have text : start ++ rest = "Complex render failed with code " ++ more :=
    (Option.some.inj (congrArg message equal)).trans opening
  have first : "Complex render failed with code ".toList.head? = some 'C' := by decide +kernel
  have heads := congrArg (fun text => text.toList.head?) text
  simp only [String.toList_append, List.head?_append, head, first, Option.some_or,
    Option.some.injEq] at heads
  exact other heads

/-- Percentages rise from zero up to hundred, and none comes once the black film is announced. -/
structure Climbs (events : List RenderEvent) : Prop where
  starts : (percentages events).head? = some 0
  rises : (percentages events).Pairwise (· < ·)
  bounded : ∀ percent ∈ percentages events, (0 : Binary64) ≤ percent ∧ percent ≤ 100
  silent : ∀ before event after, events = before ++ event :: after → event.Announces →
    percentages after = []

/-- No percentage so far is greater than a bound, and the black film is not announced. -/
structure Below (events : List RenderEvent) (bound : Binary64) : Prop where
  most : ∀ percent ∈ percentages events, percent ≤ bound
  unannounced : ∀ event ∈ events, ¬event.Announces

variable {events : List RenderEvent} {event : RenderEvent} {bound percent : Binary64}

namespace Climbs

/-- An event without a percentage may always come. -/
theorem append_plain (climbs : Climbs events) (plain : event.progress = none) :
    Climbs (events ++ [event]) := by
  have same : percentages (events ++ [event]) = percentages events := by
    rw [percentages_append, percentages_plain plain, List.append_nil]
  refine ⟨same ▸ climbs.starts, same ▸ climbs.rises, same ▸ climbs.bounded, ?_⟩
  intro before announced after equal announces
  rcases List.eq_nil_or_concat' after with rfl | ⟨earlier, last, rfl⟩
  · rfl
  · rw [← List.cons_append, ← List.append_assoc] at equal
    obtain ⟨split, final⟩ := List.append_inj' equal rfl
    cases final
    rw [percentages_append, percentages_plain plain, List.append_nil]
    exact climbs.silent before announced earlier split announces

/-- Nothing is to be said of what follows an announcement as long as there is none. -/
theorem of_below (below : Below events bound) (starts : (percentages events).head? = some 0)
    (rises : (percentages events).Pairwise (· < ·))
    (bounded : ∀ percent ∈ percentages events, (0 : Binary64) ≤ percent ∧ percent ≤ 100) :
    Climbs events := by
  refine ⟨starts, rises, bounded, fun before event after equal announces => ?_⟩
  exact absurd announces (below.unannounced event (by simp [equal]))

end Climbs

namespace Below

/-- An event without a percentage leaves the bound, if it announces nothing. -/
theorem append_plain (below : Below events bound) (plain : event.progress = none)
    (unannounced : ¬event.Announces) : Below (events ++ [event]) bound := by
  constructor
  · rw [percentages_append, percentages_plain plain, List.append_nil]
    exact below.most
  · simpa [or_imp, forall_and] using ⟨below.unannounced, unannounced⟩

/-- A greater percentage is the new bound. -/
theorem append_percentage (below : Below events bound) (rises : bound < percent) :
    Below (events ++ [.percentage percent]) percent := by
  have unannounced : ¬(RenderEvent.percentage percent).Announces := by
    rintro ⟨result, equal⟩
    cases equal
  constructor
  · intro earlier member
    rw [percentages_append, percentages_percentage, List.mem_append, List.mem_singleton] at member
    rcases member with before | rfl
    · exact Binary64.le_of_lt (Binary64.lt_of_le_of_lt (below.most earlier before) rises)
    · exact Binary64.le_self (Binary64.ne_nan_of_lt rises).2
  · simpa [or_imp, forall_and] using ⟨below.unannounced, unannounced⟩

end Below

/-- A percentage may come that is greater than all before it, while the black film is not
announced. -/
theorem Climbs.append_percentage (climbs : Climbs events) (below : Below events bound)
    (rises : bound < percent) (most : percent ≤ 100) :
    Climbs (events ++ [.percentage percent]) := by
  have all : percentages (events ++ [.percentage percent]) = percentages events ++ [percent] :=
    percentages_append events _
  have less (earlier : Binary64) (member : earlier ∈ percentages events) : earlier < percent :=
    Binary64.lt_of_le_of_lt (below.most earlier member) rises
  have risen : (0 : Binary64) ≤ percent :=
    Binary64.le_of_lt (less 0 (List.mem_of_head? climbs.starts))
  refine of_below (below.append_percentage rises) ?_ ?_ ?_
  · rw [all, List.head?_append, climbs.starts, Option.some_or]
  · rw [all, List.pairwise_append]
    refine ⟨climbs.rises, List.pairwise_singleton _ _, fun earlier member last final => ?_⟩
    rw [List.mem_singleton.mp final]
    exact less earlier member
  · intro shown member
    rw [all, List.mem_append, List.mem_singleton] at member
    rcases member with before | rfl
    · exact climbs.bounded shown before
    · exact ⟨risen, most⟩

/-! ## Supervised renders -/

/-- The last percentage that a process may have reported that can still report one. -/
def AttemptRole.reported? : AttemptRole → Option Binary64
  | .primary parser => some parser.lastProgress
  | .fallback _ => none

/-- The last percentage that was reported, as long as more can be. -/
def Supervision.reported? : Supervision → Option Binary64
  | .ready => some 0
  | .reading attempt => attempt.role.reported?
  | .reported attempt => attempt.role.reported?
  | .waiting attempt => attempt.role.reported?
  | _ => none

/-- The last percentage that was reported, as long as more can be. -/
def StreamPhase.reported? : StreamPhase → Option Binary64
  | .greeted => some 0
  | .prepared _ => some 0
  | .planned _ => some 0
  | .supervising render => render.phase.reported?
  | _ => none

/-- The events climb, and no percentage is greater than the last one while more can come. -/
structure Mounts (events : List RenderEvent) (last : Option Binary64) : Prop where
  climbs : Climbs events
  below : ∀ bound ∈ last, Below events bound

namespace Mounts

variable {last : Option Binary64}

theorem append_plain (mounts : Mounts events last) (plain : event.progress = none)
    (unannounced : ¬event.Announces) : Mounts (events ++ [event]) last :=
  ⟨mounts.climbs.append_plain plain,
    fun bound known => (mounts.below bound known).append_plain plain unannounced⟩

/-- A percentage that is not at most the last one is greater. -/
theorem append_percentage (mounts : Mounts events (some bound)) (higher : ¬percent ≤ bound)
    (most : percent ≤ 100) : Mounts (events ++ [.percentage percent]) (some percent) := by
  have below := mounts.below bound rfl
  have started := below.most 0 (List.mem_of_head? mounts.climbs.starts)
  have rises : bound < percent :=
    Binary64.lt_of_not_le (Binary64.ne_nan_of_le most).1 (Binary64.ne_nan_of_le started).2 higher
  refine ⟨mounts.climbs.append_percentage below rises most, fun last known => ?_⟩
  cases known
  exact below.append_percentage rises

/-- Where no percentage can come any more, any other event may. -/
theorem append_last (mounts : Mounts events last) (plain : event.progress = none) :
    Mounts (events ++ [event]) none :=
  ⟨mounts.climbs.append_plain plain, by simp⟩

theorem still (mounts : Mounts events last) : Mounts (events ++ []) last := by
  rwa [List.append_nil]

/-- Whether more percentages can come matters no longer. -/
theorem ceased (mounts : Mounts events last) : Mounts (events ++ []) none :=
  ⟨mounts.still.climbs, by simp⟩

end Mounts

/-- What a piece of output does to the last percentage, and what it reports. -/
theorem Attempt.reported_of_take {attempt next : Attempt} {piece : String} {rest : Process}
    {report : Option Binary64} (taken : attempt.take piece rest = .ok (next, report)) :
    (report = none ∧ next.role.reported? = attempt.role.reported?) ∨
      ∃ percent bound, report = some percent ∧ attempt.role.reported? = some bound ∧
        next.role.reported? = some percent ∧ ¬percent ≤ bound := by
  simp only [take] at taken
  split at taken
  next first role =>
    cases taken
    exact .inl ⟨rfl, rfl⟩
  next parser role =>
    obtain ⟨⟨parser', report'⟩, fed, equal⟩ := bind_eq_ok.mp taken
    obtain ⟨known, rises⟩ := ProgressParser.parts_of_feed fed
    cases equal
    cases report' with
    | none =>
        refine .inl ⟨rfl, ?_⟩
        rw [role, known]
        rfl
    | some percent =>
        refine .inr ⟨percent, parser.lastProgress, rfl, ?_, ?_, rises percent rfl⟩
        · rw [role]
          rfl
        · rw [known]
          rfl

namespace SupervisedRender

variable {studio : Studio} {render : SupervisedRender} {step : Step SupervisedRender}

/-- A decision at the end of a process shows no percentage, and none follows it. -/
theorem plain_of_decides {role : AttemptRole} {result : AttemptResult} {phase : Supervision}
    (decides : render.Decides role result phase event) :
    event.progress = none ∧ phase.reported? = none := by
  cases decides with
  | cancelled => exact ⟨rfl, rfl⟩
  | succeeded => exact ⟨rfl, rfl⟩
  | announced => exact ⟨rfl, rfl⟩
  | lost => exact ⟨rfl, rfl⟩

/-- Events climb on with a step of a supervised render. -/
theorem mounts_of_move (move : Move studio render step)
    (mounts : Mounts events render.phase.reported?) :
    Mounts (events ++ step.signal.events) step.state.phase.reported? := by
  cases move with
  | refused => exact mounts.ceased
  | launched starts =>
      cases starts with
      | primary phase =>
          rw [phase] at mounts
          exact mounts.still
      | fallback phase => exact mounts.ceased
  | @stuck attempt phase =>
      rw [phase] at mounts
      simp only [Supervision.reported?, Attempt.watch_role]
      exact mounts.still
  | @closed attempt phase =>
      rw [phase] at mounts
      simp only [Supervision.reported?, Attempt.watch_role]
      exact mounts.still
  | failed => exact mounts.ceased
  | silent phase takes =>
      rw [phase] at mounts
      rcases Attempt.reported_of_take takes.taken with ⟨-, same⟩ | ⟨_, _, reported, -⟩
      · rw [Attempt.watch_role] at same
        simp only [Supervision.reported?, same]
        exact mounts.still
      · contradiction
  | @progressed attempt next percent piece rest shown phase takes valid =>
      rw [phase] at mounts
      obtain ⟨rfl, -, most⟩ := RenderEvent.ofProgress_eq_ok.mp valid
      rcases Attempt.reported_of_take takes.taken with
        ⟨silence, -⟩ | ⟨_, bound, reported, before, after, higher⟩
      · contradiction
      · cases reported
        rw [Attempt.watch_role] at before
        rw [Supervision.reported?, before] at mounts
        simp only [present, Supervision.reported?, after]
        exact mounts.append_percentage higher most
  | released phase =>
      rw [phase] at mounts
      exact mounts.still
  | decided waiting decides =>
      obtain ⟨plain, final⟩ := plain_of_decides decides
      simp only [present, final]
      exact mounts.append_last plain
  | left => exact mounts.ceased
  | idle phase => exact mounts.still

end SupervisedRender

/-! ## Streams -/

namespace RenderStream

variable {studio after : Studio} {stream : RenderStream} {step : Step RenderStream}
variable {order : RenderOrder}

theorem reported_of_supervises {render : SupervisedRender} (supervises : stream.Supervises render) :
    stream.phase.reported? = render.phase.reported? := by
  cases supervises with
  | first phase => rw [phase, StreamPhase.reported?, Supervision.reported?]
  | next phase => rw [phase, StreamPhase.reported?]

/-- Events climb on with a step of a stream behind the gate. -/
theorem mounts_of_move (move : Move studio stream step) (begun : stream.phase ≠ .ready)
    (mounts : Mounts events stream.phase.reported?) :
    step.state.phase ≠ .ready ∧
      Mounts (events ++ step.signal.events) step.state.phase.reported? := by
  cases move with
  | rejected phase => exact absurd phase begun
  | entered phase => exact absurd phase begun
  | turned => exact ⟨StreamPhase.noConfusion, mounts.ceased⟩
  | unprepared => exact ⟨StreamPhase.noConfusion, mounts.append_last rfl⟩
  | prepared phase =>
      rw [phase] at mounts
      refine ⟨StreamPhase.noConfusion, mounts.append_plain rfl ?_⟩
      rw [String.append_assoc]
      exact RenderEvent.not_announces_note 'F' (by decide +kernel) (by decide)
  | unchecked => exact ⟨StreamPhase.noConfusion, mounts.append_last rfl⟩
  | unwritten => exact ⟨StreamPhase.noConfusion, mounts.append_last rfl⟩
  | planned phase =>
      rw [phase] at mounts
      refine ⟨StreamPhase.noConfusion, mounts.append_plain rfl ?_⟩
      rw [String.append_assoc]
      exact RenderEvent.not_announces_note 'F' (by decide +kernel) (by decide)
  | ended => exact ⟨StreamPhase.noConfusion, mounts.ceased⟩
  | broken => exact ⟨StreamPhase.noConfusion, mounts.append_last rfl⟩
  | @passed render supervises =>
      rw [reported_of_supervises supervises] at mounts
      exact ⟨StreamPhase.noConfusion,
        SupervisedRender.mounts_of_move (SupervisedRender.move_of_resume studio render) mounts⟩
  | left => exact ⟨StreamPhase.noConfusion, mounts.ceased⟩
  | idle => exact ⟨begun, mounts.still⟩

/-- The first event of a stream that finds the gate free reports zero. -/
theorem mounts_of_enter (ready : stream.phase = .ready) (free : studio.gate.busy = false) :
    (resume studio stream).state.phase ≠ .ready ∧
      Mounts (resume studio stream).signal.events (resume studio stream).state.phase.reported? := by
  have entered : resume studio stream =
      stream.present { studio with gate := { busy := true } } .greeted
        { progress := some 0, message := some "Starting render process..." } := by
    simp only [resume, ready, enter, RenderGate.acquire, free]
    rfl
  rw [entered]
  have zero : (0 : Binary64) ≤ 0 ∧ (0 : Binary64) ≤ 100 := by decide +kernel
  have below : Below [{ progress := some 0, message := some "Starting render process..." }] 0 := by
    constructor
    · exact List.forall_mem_singleton.mpr zero.1
    · refine List.forall_mem_singleton.mpr ?_
      rintro ⟨result, equal⟩
      cases equal
  refine ⟨StreamPhase.noConfusion, Climbs.of_below below rfl (List.pairwise_singleton _ _) ?_, ?_⟩
  · exact List.forall_mem_singleton.mpr zero
  · intro bound known
    cases known
    exact below

/-- A stream that finds the gate free shows percentages that rise strictly from zero and stay within
zero and hundred, wherever it is cancelled and whatever its processes write, and none once it has
announced the black film. -/
theorem climbs_of_reaches (free : studio.gate.busy = false)
    (reached : producer.Reaches studio { order := order } events after stream) :
    events = [] ∨ Climbs events := by
  have told := reached.invariant
    (fun events after now =>
      (now.phase = .ready ∧ events = [] ∧ after.gate.busy = false) ∨
        (now.phase ≠ .ready ∧ Mounts events now.phase.reported?))
    (.inl ⟨rfl, rfl, free⟩) (fun events after now told => told) ?_
  · rcases told with ⟨-, nothing, -⟩ | ⟨-, mounts⟩
    · exact .inl nothing
    · exact .inr mounts.climbs
  · rintro events after now (⟨ready, rfl, free⟩ | ⟨begun, mounts⟩)
    · exact .inr (mounts_of_enter ready free)
    · exact .inr (mounts_of_move (move_of_resume after now) begun mounts)

/-- A studio where the first process steps back before it fails, and the second one tells a
position too. -/
def wordyStudio : Studio where
  launches :=
    [.started
      { chunks := [.text "Duration: 00:00:10.00 time=00:00:05.00", .text "time=00:00:02.00"]
        exitCode := 1 },
      .started { chunks := [.text "time=00:00:09.00"] }]

theorem climbs_wordyStudio :
    ∃ events after stream,
      producer.Reaches wordyStudio { order := sampleOrder } events after stream ∧
        events.getLast? = some (.finished "film.mp4") ∧ percentages events = [0, 50] ∧
        Climbs events := by
  have reached := producer.reaches_play wordyStudio { order := sampleOrder }
    (List.replicate 13 .resume)
  have facts :
      (producer.play wordyStudio { order := sampleOrder } (List.replicate 13 .resume)).1.getLast? =
          some (.finished "film.mp4") ∧
        percentages
            (producer.play wordyStudio { order := sampleOrder } (List.replicate 13 .resume)).1 =
          [0, 50] := by
    decide +kernel
  have climbs := (climbs_of_reaches rfl reached).resolve_left fun nothing => by
    have last := facts.1
    rw [nothing] at last
    contradiction
  exact ⟨_, _, _, reached, facts.1, facts.2, climbs⟩

end RenderStream

end Montage
