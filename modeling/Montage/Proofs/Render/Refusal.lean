import Montage.Proofs.Filter.Mention
import Montage.Proofs.Job
import Montage.Proofs.Render.Stream

/-!
# Refused orders

An order is refused before anything is written or started: its payload gives no job, its job is not
fit to be rendered, or the external renderer is missing. The stream of such an order reports why it
is refused and touches nothing but the gate. A job with inputs is unfit only if a text or a colour
that it takes over from its payload holds a word for a missing value.
-/

namespace Montage

open Montage.Filter (Entry hasNumeral_real)

variable {workplace : Workplace} {payload : RenderPayload} {film : FilmPath} {job : RenderJob}

/-! ## Unfit jobs -/

/-- A script that is not blank is refused exactly if it holds a word for a missing value. -/
theorem validateRender_eq {files : List String} {entries : List Entry} {statements : List String}
    (some : files ≠ []) (written : Filter.statements entries = .ok statements)
    (solid : ∃ statement ∈ statements, '[' ∈ statement.toList) :
    validateRender files entries =
      if Mentions (Filter.statementSeparator.intercalate statements) then
        .error (Failure.invalidInput
          "Invalid filter parameters detected. Please check your timeline items.")
      else .ok () := by
  obtain ⟨statement, listed, bracket⟩ := solid
  have inside : '[' ∈ (Filter.statementSeparator.intercalate statements).toList := by
    rw [String.toList_intercalate]
    exact Text.mem_intercalate_of_mem _ (List.mem_map_of_mem listed) bracket
  have left : (Text.strip (Filter.statementSeparator.intercalate statements).toList).isEmpty =
      false :=
    List.isEmpty_eq_false_iff.mpr (Text.strip_ne_nil inside (by decide))
  have some : files.isEmpty = false := List.isEmpty_eq_false_iff.mpr some
  have filters : statements.isEmpty = false :=
    List.isEmpty_eq_false_iff.mpr (List.ne_nil_of_mem listed)
  unfold validateRender
  simp only [written, some, filters, left, Bool.false_eq_true, if_false, mentions_iff_any, bind,
    Except.bind]
  rfl

namespace RenderJob

/-- A job with inputs is refused exactly if a text or a colour that it takes over holds a word for
a missing value. -/
theorem validateRender_eq_error_iff (prepared : prepare workplace payload film = .ok job)
    (some : job.inputs.files ≠ []) :
    (∃ failure, validateRender job.inputs.files job.graph.entries = .error failure) ↔
      ∃ stage ∈ job.graph.stages, ∃ text ∈ stage.passed, Mentions text := by
  obtain ⟨-, compiled⟩ := parts_of_prepare prepared
  obtain ⟨statements, written, solid, mentions⟩ :=
    Filter.Graph.exists_mentions_script compiled ⟨hasNumeral_real _, _, rfl⟩
      (Filter.not_mentions_literal _)
  rw [validateRender_eq some written solid, ← mentions]
  split
  next mentioned => exact iff_of_true ⟨_, rfl⟩ mentioned
  next quiet => exact iff_of_false (fun ⟨_, refused⟩ => nomatch refused) quiet

end RenderJob

/-! ## Orders that are refused -/

/-- The reasons for which an order is refused before anything is written or started. -/
inductive RenderOrder.RefusedBy (order : RenderOrder) : Failure → Prop where
  | unprepared {failure : Failure}
      (unprepared : RenderJob.prepare order.workplace order.payload order.output =
        .error failure) :
      order.RefusedBy failure
  | unfit {job : RenderJob} {failure : Failure}
      (prepared : RenderJob.prepare order.workplace order.payload order.output = .ok job)
      (unfit : validateRender job.inputs.files job.graph.entries = .error failure) :
      order.RefusedBy failure
  | rendererless {job : RenderJob}
      (prepared : RenderJob.prepare order.workplace order.payload order.output = .ok job)
      (fit : validateRender job.inputs.files job.graph.entries = .ok ())
      (missing : order.rendererFound = false) :
      order.RefusedBy (Failure.invalidInput
        "FFmpeg not available. Please check the FFmpeg installation.")

/-- Where the stream of an order stands while nothing is written or started. -/
inductive RenderOrder.Waits (order : RenderOrder) : StreamPhase → Prop where
  | ready : order.Waits .ready
  | rejected : order.Waits .rejected
  | greeted : order.Waits .greeted
  | prepared {job : RenderJob}
      (prepared : RenderJob.prepare order.workplace order.payload order.output = .ok job) :
      order.Waits (.prepared job)
  | failing : order.Waits (.failing none)
  | finished : order.Waits .finished

namespace RenderOrder.RefusedBy

variable {order : RenderOrder} {failure other : Failure}

theorem eq_of_unprepared (refused : order.RefusedBy failure)
    (unprepared : RenderJob.prepare order.workplace order.payload order.output = .error other) :
    other = failure := by
  cases refused with
  | unprepared same => exact Except.error.inj (unprepared.symm.trans same)
  | unfit prepared => cases unprepared.symm.trans prepared
  | rendererless prepared => cases unprepared.symm.trans prepared

/-- The job of a refused order does not pass its check. -/
theorem check (refused : order.RefusedBy failure) (waits : order.Waits (.prepared job)) :
    RenderStream.check order job = .error failure := by
  cases waits with
  | prepared prepared =>
      cases refused with
      | unprepared unprepared => cases prepared.symm.trans unprepared
      | unfit prepared' unfit =>
          cases prepared.symm.trans prepared'
          exact bind_eq_error.mpr (.inl unfit)
      | rendererless prepared' fit missing =>
          cases prepared.symm.trans prepared'
          refine bind_eq_error.mpr (.inr ⟨(), fit, ?_⟩)
          rw [missing]
          rfl

end RenderOrder.RefusedBy

namespace RenderStream

variable {studio after : Studio} {stream : RenderStream} {step : Step RenderStream}
variable {order : RenderOrder} {failure : Failure} {events : List RenderEvent}

/-! ## Streams of refused orders -/

theorem not_supervises_of_waits {render : SupervisedRender} (waits : order.Waits stream.phase) :
    ¬stream.Supervises render := by
  intro supervises
  cases supervises with
  | first phase => cases phase ▸ waits
  | next phase => cases phase ▸ waits

/-- An event of a stream whose order is turned away because of another or refused: it says so, or
that the stream goes on. -/
def Excuses (failure : Failure) (event : RenderEvent) : Prop :=
  event.isTerminal = true → event = rejectionEvent ∨ event = .failed (reportText failure)

theorem excuses_of_not_isTerminal {event : RenderEvent} (going : event.isTerminal = false) :
    Excuses failure event :=
  fun terminal => nomatch going.symm.trans terminal

/-- What the stream of a refused order has come to: it waits, and has touched nothing but the
gate. -/
structure Spares (failure : Failure) (order : RenderOrder) (studio : Studio)
    (events : List RenderEvent) (after : Studio) (stream : RenderStream) : Prop where
  same : stream.order = order
  waits : order.Waits stream.phase
  studio : after = { studio with gate := after.gate }
  events : ∀ event ∈ events, Excuses failure event

/-- A step of the stream of a refused order touches nothing but the gate. -/
theorem spares_of_move (refused : stream.order.RefusedBy failure)
    (waits : stream.order.Waits stream.phase) (move : Move studio stream step) :
    Spares failure stream.order studio step.signal.events step.studio step.state := by
  -- The stream never stands where a script is written or a render goes on.
  have reports : Excuses failure (.failed (reportText failure)) := fun _ => .inr rfl
  cases move with
  | rejected =>
      exact ⟨rfl, .rejected, rfl, List.forall_mem_singleton.mpr fun _ => .inl rfl⟩
  | entered =>
      exact ⟨rfl, .greeted, rfl, List.forall_mem_singleton.mpr (excuses_of_not_isTerminal rfl)⟩
  | turned => exact ⟨rfl, .finished, rfl, List.forall_mem_nil _⟩
  | unprepared _ unprepared =>
      cases refused.eq_of_unprepared unprepared
      exact ⟨rfl, .failing, rfl, List.forall_mem_singleton.mpr reports⟩
  | prepared _ prepared =>
      exact ⟨rfl, .prepared prepared, rfl,
        List.forall_mem_singleton.mpr (excuses_of_not_isTerminal rfl)⟩
  | unchecked phase checked =>
      cases checked.symm.trans (refused.check (phase ▸ waits))
      exact ⟨rfl, .failing, rfl, List.forall_mem_singleton.mpr reports⟩
  | unwritten phase checked => cases checked.symm.trans (refused.check (phase ▸ waits))
  | planned phase checked => cases checked.symm.trans (refused.check (phase ▸ waits))
  | ended supervises => exact absurd supervises (not_supervises_of_waits waits)
  | broken supervises => exact absurd supervises (not_supervises_of_waits waits)
  | passed supervises => exact absurd supervises (not_supervises_of_waits waits)
  | left phase =>
      rw [phase] at waits
      cases waits with
      | failing => exact ⟨rfl, .finished, rfl, List.forall_mem_nil _⟩
  | idle => exact ⟨rfl, waits, rfl, List.forall_mem_nil _⟩

/-- Whatever a client does with the stream of a refused order, nothing but the gate is touched. -/
theorem spares_of_reaches (refused : order.RefusedBy failure)
    (reached : producer.Reaches studio { order := order } events after stream) :
    Spares failure order studio events after stream := by
  refine reached.invariant (Spares failure order studio) ?_ ?_ ?_
  · exact ⟨rfl, .ready, rfl, List.forall_mem_nil _⟩
  · intro events after stream spares
    exact ⟨spares.same, spares.waits, spares.studio, spares.events⟩
  · intro events after stream spares
    have next := spares_of_move (spares.same ▸ refused) (spares.same ▸ spares.waits)
      (move_of_resume after stream)
    rw [spares.same] at next
    refine ⟨next.same, next.waits, ?_, List.forall_mem_append.mpr ⟨spares.events, next.events⟩⟩
    calc (resume after stream).studio
        = { after with gate := (resume after stream).studio.gate } := next.studio
      _ = { studio with gate := (resume after stream).studio.gate } := by rw [spares.studio]

/-- Giving the stream up while it waits touches nothing but the gate. -/
theorem close_of_waits (waits : order.Waits stream.phase) (studio : Studio) :
    (close studio stream).1 = { studio with gate := (close studio stream).1.gate } := by
  simp only [close]
  generalize stream.phase = phase at waits
  cases waits with
  | ready | rejected | greeted | prepared | failing | finished => rfl

/-- A refused order that finds the gate free comes to its report. -/
theorem exists_reaches_report (refused : order.RefusedBy failure)
    (free : studio.gate.busy = false) :
    ∃ events after, producer.Reaches studio { order := order }
      (events ++ [.failed (reportText failure)]) after
      { order := order, phase := .failing none } := by
  let held : Studio := { studio with gate := { busy := true } }
  let greeted : RenderStream := { order := order, phase := .greeted }
  have entered : resume studio { order := order } =
      present { order := order } held .greeted
        { progress := some 0, message := some "Starting render process..." } := by
    simp only [resume, enter, RenderGate.acquire, free]
    rfl
  have begun : producer.Reaches studio { order := order } [] studio { order := order } := .start
  have reached := begun.step entered
  cases prepared : RenderJob.prepare order.workplace order.payload order.output with
  | error other =>
      cases refused.eq_of_unprepared prepared
      have failed : resume held greeted = greeted.fail held none failure := by
        simp only [resume, prepare, greeted, prepared]
      exact ⟨_, _, reached.step failed⟩
  | ok job =>
      let waiting : RenderStream := { order := order, phase := .prepared job }
      have found : resume held greeted = greeted.present held (.prepared job)
          (.note ("Found " ++ toString job.inputs.files.length ++ " input files")) := by
        simp only [resume, prepare, greeted, prepared]
      have failed : resume held waiting = waiting.fail held none failure := by
        simp only [resume, plan, waiting, refused.check (.prepared prepared)]
      exact ⟨_, _, (reached.step found).step failed⟩

end RenderStream

/-- An order is refused without a trace, and a job with inputs is not refused without a reason in
its payload. -/
structure RenderOrder.RefusesCleanly (order : RenderOrder) : Prop where
  /-- The stream of a refused order writes nothing and starts nothing, however it is read and
  wherever it is given up. -/
  untouched : ∀ failure, order.RefusedBy failure → ∀ studio events after stream,
    RenderStream.producer.Reaches studio { order := order } events after stream →
      after = { studio with gate := after.gate } ∧
        (RenderStream.close after stream).1 =
          { studio with gate := (RenderStream.close after stream).1.gate }
  /-- It ends in no other way than with a report, which it comes to if it finds the gate free. -/
  reported : ∀ failure, order.RefusedBy failure → ∀ studio,
    (∀ events after stream,
      RenderStream.producer.Reaches studio { order := order } events after stream →
        ∀ event ∈ events, RenderStream.Excuses failure event) ∧
    (studio.gate.busy = false → ∃ events after,
      RenderStream.producer.Reaches studio { order := order }
        (events ++ [.failed (reportText failure)]) after
        { order := order, phase := .failing none })
  /-- A job with inputs is unfit exactly if a text, the colour of a text or the colour of a box
  holds a word for a missing value. -/
  deserved : ∀ job,
    RenderJob.prepare order.workplace order.payload order.output = .ok job →
      job.inputs.files ≠ [] →
        ((∃ failure, validateRender job.inputs.files job.graph.entries = .error failure) ↔
          ∃ stage ∈ job.graph.stages, ∃ text ∈ stage.passed, Mentions text)

theorem RenderOrder.refusesCleanly (order : RenderOrder) : order.RefusesCleanly where
  untouched failure refused studio events after stream reached := by
    have spares := RenderStream.spares_of_reaches refused reached
    refine ⟨spares.studio, ?_⟩
    calc (RenderStream.close after stream).1
        = { after with gate := (RenderStream.close after stream).1.gate } :=
          RenderStream.close_of_waits spares.waits after
      _ = { studio with gate := (RenderStream.close after stream).1.gate } := by
          rw [spares.studio]
  reported failure refused studio := by
    constructor
    · intro events after stream reached
      exact (RenderStream.spares_of_reaches refused reached).events
    · exact RenderStream.exists_reaches_report refused
  deserved job := RenderJob.validateRender_eq_error_iff

/-! ## A title with a word in it -/

/-- A picture and a title in which `null` stands, as a part of another word. -/
def annulledPayload : RenderPayload where
  layers := [Filter.sampleLayer true [Filter.sampleItem "picture" 0, Filter.sampleItem "title" 0]]
  mediaLibrary :=
    [Filter.sampleAsset "picture" .image,
      { Filter.sampleAsset "title" .text with text := some "An annulled vote" }]
  timeline := { totalDuration := some 12 }
  editorSettings := { videoStyle := none }

/-- An order for that film. -/
def annulledOrder : RenderOrder where
  workplace := RenderJob.sampleWorkplace
  payload := annulledPayload
  output := "film.mp4"
  scriptPath := "filters_0.txt"

theorem refusedBy_annulledOrder :
    annulledOrder.RefusesCleanly ∧ ∃ failure, annulledOrder.RefusedBy failure := by
  have clean := RenderOrder.refusesCleanly annulledOrder
  have prepared : ∃ job ∈ (RenderJob.prepare annulledOrder.workplace annulledOrder.payload
      annulledOrder.output).toOption, job.inputs.files ≠ [] ∧
        ∃ stage ∈ job.graph.stages, ∃ text ∈ stage.passed, Mentions text := by
    decide +kernel
  obtain ⟨job, member, some, mentions⟩ := prepared
  have prepared := mem_toOption.mp member
  obtain ⟨failure, unfit⟩ := (clean.deserved job prepared some).mpr mentions
  exact ⟨clean, failure, .unfit prepared unfit⟩

end Montage
