import Montage.Proofs.Decimals
import Montage.Proofs.Filter.Mixing
import Montage.Proofs.Filter.Precision

/-!
# Guards against idle stages

An item without time is passed over, and so is a sound without loudness; a stage that would leave
the loudness as it is, or put a sound off by nothing, is left out. These guards look at numbers, but
the renderer reads numerals. A number within half a millionth of an integer is written as that
integer, so the two ways of looking agree exactly if no number that passes a guard lies so close to
an integer that the guard is there to keep out. Payloads exist where one does.
-/

namespace Montage

namespace Filter

variable {context : Context} {item : TimelineItem} {tag : String} {draft next : Draft}
variable {stage : Stage} {number : Number} {value : Binary64} {integer : ℤ}

/-! ## Numbers close to integers -/

/-- Holds of the numbers within half a millionth of an integer. -/
def Near (integer : ℤ) (value : Binary64) : Prop :=
  ∃ exact ∈ value.toRat?, |exact - integer| ≤ 1 / 2 / 10 ^ 6

instance (integer : ℤ) (value : Binary64) : Decidable (Near integer value) :=
  inferInstanceAs (Decidable (∃ exact ∈ value.toRat?, |exact - integer| ≤ 1 / 2 / 10 ^ 6))

/-- The numeral of a number is a decimal and stands for a value. -/
def WrittenAs (number : Number) (value : ℚ) : Prop :=
  ∃ text, numeral number = .ok text ∧ IsDecimal text.toList ∧ readDecimal text.toList = value

/-- The numbers that are written as an integer are those close to it. -/
theorem writtenAs_real_iff : WrittenAs (.real value) integer ↔ Near integer value := by
  constructor
  · rintro ⟨text, written, decimal, same⟩
    have finite : value.IsFinite := hasDecimal_iff.mp ⟨text, written, decimal⟩
    obtain ⟨exact, finite⟩ := Binary64.isFinite_iff.mp finite
    obtain ⟨text', written', writes⟩ := exists_numeral (hasDecimal_iff.mp ⟨text, written, decimal⟩)
    cases written.symm.trans written'
    rw [Number.value_real finite] at writes
    exact ⟨exact, finite, (writes.readDecimal_eq_iff (by decide) integer).mp same⟩
  · rintro ⟨exact, finite, near⟩
    obtain ⟨text, written, writes⟩ :=
      @exists_numeral (.real value) (Binary64.isFinite_iff.mpr ⟨exact, finite⟩)
    rw [Number.value_real finite] at writes
    exact ⟨text, written, writes.concise.isDecimal,
      (writes.readDecimal_eq_iff (by decide) integer).mpr near⟩

/-! ## Guards -/

/-- What the guards look at: the time for which a stream is cut, the loudness of a sound and the
time by which it is put off. -/
inductive Guard where
  | time
  | gain
  | delay
  deriving DecidableEq

namespace Guard

/-- The integers that a guard is there to keep out of the script. -/
def refused : Guard → List ℤ
  | .time => [0]
  | .gain => [0, 1]
  | .delay => [0]

/-- The number of a stage that a guard is about. -/
def number? : Guard → Stage → Option Number
  | .time, .trim stage => some stage.duration
  | .gain, .volume stage => some stage.factor
  | .delay, .delay stage => some stage.milliseconds
  | _, _ => none

/-- What passes a guard of the sound of an item. -/
def passedSound (item : TimelineItem) (media : MediaItem) : Guard → List Binary64
  | .time => [item.duration]
  | .gain => if (gainOf media).equals 1 then [] else [gainOf media]
  | .delay => if 0 < item.startTime then [item.startTime * 1000] else []

/-- What passes a guard of the picture of an item. -/
def passedPicture (item : TimelineItem) : Guard → List Binary64
  | .time => [item.duration]
  | .gain | .delay => []

/-- What passes a guard of an item. -/
def passed (guard : Guard) (context : Context) (item : TimelineItem) : List Binary64 :=
  match context.library.find? item.mediaId with
  | none => []
  | some media =>
      match context.sources.find? media.id, media.kind with
      | none, _ => []
      | some .drawn, _ => []
      | some (.input _), .image | some (.input _), .text => []
      | some (.input _), .video => if item.duration ≤ 0 then [] else guard.passedPicture item
      | some (.input _), .audio | some (.input _), .voiceover =>
          if media.muted || (loudness media).isZero || decide (item.duration ≤ 0) then []
          else guard.passedSound item media

theorem passed_of_skipped (guard : Guard) (skipped : Skipped context item) :
    guard.passed context item = [] := by
  match skipped with
  | .unknown missing => simp [passed, missing]
  | .unsourced found missing => simp [passed, found, missing]
  | .fileless found source _ => simp [passed, found, source]
  | @Skipped.over _ _ media found kind instant =>
      rcases source : context.sources.find? media.id with _ | _ | position
      all_goals rcases kind with kind | kind | kind
      all_goals simp [passed, found, source, kind, instant]
  | @Skipped.silent _ _ media found kind mute =>
      rcases source : context.sources.find? media.id with _ | _ | position
      all_goals rcases kind with kind | kind
      all_goals simp [passed, found, source, kind, mute]
  | @Skipped.wordless _ _ media _ found kind _ _ =>
      rcases source : context.sources.find? media.id with _ | _ | position
      all_goals simp [passed, found, source, kind]

theorem filterMap_chainSteps (guard : Guard) (media : MediaItem) (branch source : String) :
    (chainSteps tag branch source (soundSteps item (gainOf media))).filterMap guard.number? =
      (guard.passedSound item media).map .real := by
  by_cases unchanged : (gainOf media).equals 1 = true <;> by_cases late : 0 < item.startTime
  all_goals
    cases guard
    all_goals
      simp [soundSteps, chainSteps, unchanged, late, number?, passedSound, List.filterMap_cons]

end Guard

/-- The numbers that a guard is about in what an item adds are those that pass it. -/
theorem Addition.filterMap_number? (addition : Addition context item tag draft next)
    (guard : Guard) :
    (newStages draft next).filterMap guard.number? =
      (guard.passed context item).map .real := by
  cases addition with
  | skip reason => simp [guard.passed_of_skipped reason]
  | image sourced kind =>
      rw [Draft.overlay, List.append_assoc, newStages_append]
      cases guard <;> simp [Guard.number?, Guard.passed, sourced.found, sourced.source, kind]
  | video sourced kind lasting placed cut =>
      rw [Draft.overlay, List.append_assoc, newStages_append]
      cases guard
      all_goals simp [Guard.number?, Guard.passed, Guard.passedPicture, sourced.found,
        sourced.source, kind, lasting, cut]
  | @sound media position factor sourced kind audible lasting scaled =>
      -- A division fails only by zero, and the loudness is divided by a hundred.
      have same : factor = gainOf media := by
        rw [Binary64.div] at scaled
        split at scaled
        · cases scaled
        · exact (Except.ok.inj scaled).symm
      rw [newStages_append, same, guard.filterMap_chainSteps]
      simp only [Bool.or_eq_true, not_or, Bool.not_eq_true] at audible
      rcases kind with kind | kind
      all_goals simp [Guard.passed, sourced.found, sourced.source, kind, lasting, audible]
  | @text media source _ _ _ found sourced kind =>
      rw [newStages_append]
      cases source <;> cases guard
      all_goals simp [Guard.number?, Guard.passed, found, sourced, kind]
  | @boxedText media source _ _ _ _ found sourced kind =>
      rw [List.append_assoc, newStages_append]
      cases source <;> cases guard
      all_goals simp [Guard.number?, Guard.passed, found, sourced, kind]

/-! ## Compiled graphs -/

variable {items : List (TimelineItem × String)} {layers : List Layer} {graph : Graph}

theorem filterMap_addItems (guard : Guard) (compiled : addItems context items draft = .ok next) :
    next.stages.filterMap guard.number? = draft.stages.filterMap guard.number? ++
      items.flatMap fun entry => (guard.passed context entry.1).map .real := by
  induction items generalizing draft with
  | nil =>
      cases compiled
      exact (List.append_nil _).symm
  | cons entry rest ih =>
      obtain ⟨middle, added, compiled⟩ := bind_eq_ok.mp compiled
      have addition := addition_of_addItem added
      rw [ih compiled, addition.stages_eq, List.filterMap_append, addition.filterMap_number?,
        List.flatMap_cons, List.append_assoc]

/-- The numbers that a guard is about in a graph are those that pass it, item by item. -/
theorem Graph.filterMap_number? (guard : Guard)
    (compiled : Graph.ofLayers context layers = .ok graph) :
    graph.stages.filterMap guard.number? =
      ((layers.filter (·.visible)).flatMap (·.items)).flatMap fun item =>
        (guard.passed context item).map .real := by
  obtain ⟨draft, items, equal⟩ := bind_eq_ok.mp compiled
  cases equal
  -- No guard is about the matte in front of the items or the mix of the sounds behind them.
  have finished : draft.finish.stages.filterMap guard.number? =
      draft.stages.filterMap guard.number? := by
    match branches : draft.audioBranches with
    | [] => simp [Draft.finish, branches]
    | [branch] => simp [Draft.finish, branches]
    | first :: second :: rest =>
        cases guard <;> simp [Draft.finish, branches, Guard.number?]
  have matte : (Draft.start context).stages.filterMap guard.number? = [] := by
    cases guard <;> rfl
  rw [finished, filterMap_addItems guard items, matte, List.nil_append, ← map_fst_taggedItems,
    List.flatMap_map]

/-- Among the numerals in the filter of a stage is one that stands for a value. -/
def Stage.Carries (stage : Stage) (value : ℚ) : Prop :=
  ∃ number ∈ stage.numbers, WrittenAs number value

theorem Guard.carries_iff (guard : Guard) (about : guard.number? stage = some number)
    (value : ℚ) : stage.Carries value ↔ WrittenAs number value := by
  cases guard <;> cases stage <;> cases about
  · rw [Stage.Carries, Stage.numbers, Stage.pieces]
    split <;> simp [Piece.number?]
  · simp [Stage.Carries, Stage.numbers, Stage.pieces, Piece.number?]
  · simp [Stage.Carries, Stage.numbers, Stage.pieces, Piece.number?]

/-- A graph without idle stages, as its script reads: nothing is cut to no time, no sound is made
silent or left as loud as it is, and none is put off by nothing. -/
structure Graph.IsEffective (graph : Graph) : Prop where
  time : ∀ stage, .trim stage ∈ graph.stages → ¬(Stage.trim stage).Carries 0
  gain : ∀ stage, .volume stage ∈ graph.stages →
    ¬(Stage.volume stage).Carries 0 ∧ ¬(Stage.volume stage).Carries 1
  delay : ∀ stage, .delay stage ∈ graph.stages → ¬(Stage.delay stage).Carries 0

theorem Graph.isEffective_iff : graph.IsEffective ↔
    ∀ guard : Guard, ∀ number ∈ graph.stages.filterMap guard.number?,
      ∀ refused ∈ guard.refused, ¬WrittenAs number refused := by
  constructor
  · intro effective guard number member refused listed
    obtain ⟨stage, placed, about⟩ := List.mem_filterMap.mp member
    rw [← guard.carries_iff about]
    cases guard <;> cases stage <;> cases about
    · rw [List.mem_singleton.mp listed, Int.cast_zero]
      exact effective.time _ placed
    · rcases List.mem_cons.mp listed with rfl | one
      · rw [Int.cast_zero]
        exact (effective.gain _ placed).1
      · rw [List.mem_singleton.mp one, Int.cast_one]
        exact (effective.gain _ placed).2
    · rw [List.mem_singleton.mp listed, Int.cast_zero]
      exact effective.delay _ placed
  · intro kept
    have absent (guard : Guard) {stage : Stage} {number : Number} (placed : stage ∈ graph.stages)
        (about : guard.number? stage = some number) (refused : ℤ)
        (listed : refused ∈ guard.refused) : ¬stage.Carries refused := by
      rw [guard.carries_iff about]
      exact kept guard number (List.mem_filterMap.mpr ⟨stage, placed, about⟩) refused listed
    refine ⟨fun stage placed => ?_, fun stage placed => ⟨?_, ?_⟩, fun stage placed => ?_⟩
    · exact_mod_cast absent .time placed rfl 0 (by decide)
    · exact_mod_cast absent .gain placed rfl 0 (by decide)
    · exact_mod_cast absent .gain placed rfl 1 (by decide)
    · exact_mod_cast absent .delay placed rfl 0 (by decide)

/-- A graph has no idle stage exactly if nothing that passes a guard is close to an integer that
the guard is there to keep out. -/
theorem Graph.isEffective_iff_of_layers (compiled : Graph.ofLayers context layers = .ok graph) :
    graph.IsEffective ↔
      ∀ item ∈ (layers.filter (·.visible)).flatMap (·.items), ∀ guard : Guard,
        ∀ value ∈ guard.passed context item, ∀ refused ∈ guard.refused, ¬Near refused value := by
  simp only [isEffective_iff, Graph.filterMap_number? _ compiled, List.mem_flatMap, List.mem_map]
  constructor
  · intro kept item listed guard value passed refused member near
    exact kept guard (.real value) ⟨item, listed, value, passed, rfl⟩ refused member
      (writtenAs_real_iff.mpr near)
  · rintro apart guard number ⟨item, listed, value, passed, rfl⟩ refused member written
    exact apart item listed guard value passed refused member (writtenAs_real_iff.mp written)

end Filter

namespace RenderJob

open Montage.Filter

variable {workplace : Workplace} {payload : RenderPayload} {film : FilmPath} {job : RenderJob}

/-- The script of a job has no idle statement exactly if no number of a visible item that passes a
guard lies within half a millionth of an integer that the guard is there to keep out. -/
theorem isEffective_iff_of_prepare (prepared : prepare workplace payload film = .ok job) :
    job.graph.IsEffective ↔
      ∀ item ∈ payload.visibleItems, ∀ guard : Guard,
        ∀ value ∈ guard.passed (context workplace payload job.inputs) item,
          ∀ refused ∈ guard.refused, ¬Near refused value :=
  Graph.isEffective_iff_of_layers (parts_of_prepare prepared).2

/-- A film of so many seconds and two sounds of so many percent, of which the first starts after so
many seconds. -/
def slightPayload (duration start percent percent' : Binary64) : RenderPayload where
  layers :=
    [sampleLayer true [{ sampleItem "film" 0 with duration := duration },
      sampleItem "faint" start, sampleItem "raised" 0]]
  mediaLibrary :=
    [sampleAsset "film" .video, { sampleAsset "faint" .audio with volume := some percent },
      { sampleAsset "raised" .audio with volume := some percent' }]
  timeline := { totalDuration := some 12 }
  editorSettings := { videoStyle := none }

/-- Six ten-millionths are enough for each number to stay apart. -/
theorem isEffective_slightPayload :
    ∃ job, prepare sampleWorkplace (slightPayload 6e-7 6e-10 6e-5 100.00006) "film.mp4" = .ok job ∧
      job.graph.IsEffective := by
  have prepared : ∃ job ∈
      (prepare sampleWorkplace (slightPayload 6e-7 6e-10 6e-5 100.00006) "film.mp4").toOption,
      ∀ item ∈ (slightPayload 6e-7 6e-10 6e-5 100.00006).visibleItems,
        ∀ guard ∈ [Guard.time, .gain, .delay],
          ∀ value ∈ guard.passed (context sampleWorkplace
              (slightPayload 6e-7 6e-10 6e-5 100.00006) job.inputs) item,
            ∀ refused ∈ guard.refused, ¬Near refused value := by
    decide +kernel
  obtain ⟨job, member, apart⟩ := prepared
  have prepared := mem_toOption.mp member
  refine ⟨job, prepared, (isEffective_iff_of_prepare prepared).mpr ?_⟩
  exact fun item listed guard => apart item listed guard (by cases guard <;> decide)

/-! ## Numbers that pass a guard and vanish -/

/-- Statements of a script in which nothing is left of four numbers. -/
def idleStatements : List String :=
  ["[0:v] trim=duration=0, setpts=PTS-STARTPTS [trim_0_0]", "[atrim_0_1] volume=0 [avol_0_1]",
    "[avol_0_1] adelay=0|0 [audio_0_1]", "[atrim_0_2] volume=1 [audio_0_2]"]

/-- Of a ten-millionth nothing is left, although each number passes its guard. -/
theorem idle_slightPayload :
    ∃ job statements,
      prepare sampleWorkplace (slightPayload 1e-7 1e-10 1e-5 100.00001) "film.mp4" = .ok job ∧
      job.graph.statements = .ok statements ∧ idleStatements ⊆ statements ∧
      ¬job.graph.IsEffective := by
  have prepared : ∃ job ∈
      (prepare sampleWorkplace (slightPayload 1e-7 1e-10 1e-5 100.00001) "film.mp4").toOption,
      (∃ statements ∈ job.graph.statements.toOption, idleStatements ⊆ statements) ∧
      ∃ item ∈ (slightPayload 1e-7 1e-10 1e-5 100.00001).visibleItems,
        ∃ value ∈ Guard.time.passed (context sampleWorkplace
            (slightPayload 1e-7 1e-10 1e-5 100.00001) job.inputs) item,
          Near 0 value := by
    decide +kernel
  obtain ⟨job, member, ⟨statements, written, idle⟩, item, listed, value, passed, near⟩ := prepared
  have prepared := mem_toOption.mp member
  refine ⟨job, statements, prepared, mem_toOption.mp written, idle, fun effective => ?_⟩
  have apart := (Graph.isEffective_iff_of_layers (parts_of_prepare prepared).2).mp effective
  exact apart item listed .time value passed 0 (by decide) near

end RenderJob

end Montage
