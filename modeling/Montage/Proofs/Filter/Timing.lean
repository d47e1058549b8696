import Montage.Proofs.Binary64.Arithmetic
import Montage.Proofs.Filter.Painting

/-!
# When sources are shown

A stream shows the times of a source at times of its own, and a stage changes at which. The stages
of an item, one after another, say at which time of the film a time of the source is shown. A sound
is put off by the start of its item. A moving picture is not: it is cut and laid over, so that a
time of the film shows the same time of the source, and the window of the item only hides the rest.
-/

namespace Montage

/-- The rank of a number. The value that is no number has none. -/
def Number.rank? : Number → Option Binary64.Rank
  | .int value => some (Binary64.Rank.ofRat value)
  | .real value => value.rank?

/-- Holds of the times before a limit. -/
def Before (limit : Number) (time : ℚ) : Prop :=
  ∃ rank ∈ limit.rank?, Binary64.Rank.ofRat time < rank

/-- Holds of the times from a start to a finish. -/
def Between (start finish : Number) (time : ℚ) : Prop :=
  (∃ rank ∈ start.rank?, rank ≤ Binary64.Rank.ofRat time) ∧
    ∃ rank ∈ finish.rank?, Binary64.Rank.ofRat time ≤ rank

section Bounds

variable {start finish : Binary64} {low high time : ℚ}

theorem before_real (finite : finish.toRat? = some high) :
    Before (.real finish) time ↔ time < high := by
  simp [Before, Number.rank?, Binary64.rank?_of_toRat? finite]

theorem between_real (finite : start.toRat? = some low) (finite' : finish.toRat? = some high) :
    Between (.real start) (.real finish) time ↔ low ≤ time ∧ time ≤ high := by
  simp [Between, Number.rank?, Binary64.rank?_of_toRat? finite, Binary64.rank?_of_toRat? finite']

end Bounds

namespace Filter

open Binary64 (Rank)

variable {context : Context} {item : TimelineItem} {media : MediaItem} {tag : String}
variable {draft next : Draft} {stages : List Stage}

/-! ## Streams in time -/

/-- A source in a file: the times at which it has something to show, counted from the first, and
when the first comes. -/
structure Recording where
  first : ℚ
  frames : Set ℚ
  least : IsLeast frames 0

/-- At which times a stream shows which times of a source. The time of the stream comes first. -/
abbrev Timing : Type := ℚ → ℚ → Prop

namespace Timing

/-- The times at which a stream shows something. -/
def times (timing : Timing) : Set ℚ :=
  {time | ∃ content, timing time content}

/-- A stream cut to a length, with its time started at zero again. -/
def cut (timing : Timing) (length : Number) : Timing := fun time content =>
  ∃ first, IsLeast timing.times first ∧ timing (first + time) content ∧ Before length time

/-- A stream put off by a number of milliseconds. -/
def putOff (timing : Timing) (milliseconds : Number) : Timing := fun time content =>
  ∃ value, milliseconds.rank? = some (Rank.ofRat value) ∧ timing (time - value / 1000) content

/-- A stream that is shown between two times only. -/
def gated (timing : Timing) (start finish : Number) : Timing := fun time content =>
  Between start finish time ∧ timing time content

end Timing

/-- The stream of a source as its file gives it. -/
def Recording.timing (recording : Recording) : Timing := fun time content =>
  content ∈ recording.frames ∧ time = recording.first + content

/-- A source that is cut shows each of its times at that time, whenever its first one comes. -/
theorem Recording.cut_timing (recording : Recording) {length : Number} {time content : ℚ} :
    recording.timing.cut length time content ↔
      time = content ∧ content ∈ recording.frames ∧ Before length content := by
  have begins : IsLeast recording.timing.times recording.first := by
    refine ⟨⟨0, recording.least.1, (add_zero _).symm⟩, ?_⟩
    rintro time ⟨content, member, rfl⟩
    linarith [recording.least.2 member]
  constructor
  · rintro ⟨first, begins', ⟨member, equal⟩, before⟩
    obtain rfl := begins.unique begins'
    obtain rfl := add_left_cancel equal
    exact ⟨rfl, member, before⟩
  · rintro ⟨rfl, member, before⟩
    exact ⟨recording.first, begins, ⟨member, rfl⟩, before⟩

/-- What a stage makes of the stream that it carries on. -/
def Stage.retime : Stage → Timing → Timing
  | .trim stage, timing => timing.cut stage.duration
  | .delay stage, timing => timing.putOff stage.milliseconds
  | .overlay stage, timing => timing.gated stage.start stage.finish
  | .scale _, timing | .volume _, timing | .drawBox _, timing | .drawText _, timing
  | .background _, timing | .mix _, timing => timing

/-- What stages make of a stream one after another. -/
def retimed (stages : List Stage) (timing : Timing) : Timing :=
  stages.foldl (fun timing stage => stage.retime timing) timing

/-- The label of the stream of an item that a stage carries on. An overlay carries on what it lays
over its base. -/
def Stage.carried? : Stage → Option String
  | .trim stage => some stage.input
  | .scale stage => some stage.input
  | .overlay stage => some stage.overlay
  | .volume stage => some stage.input
  | .delay stage => some stage.input
  | .background _ | .drawBox _ | .drawText _ | .mix _ => none

/-! ## Sounds -/

/-- A chain carries its source to its branch. -/
theorem linked_chainSteps {steps : List (String × (String → String → Stage))} {source : String}
    (branch : String) (unary : Draft.Unary steps) (nonempty : steps ≠ [])
    (carries : ∀ step ∈ steps, ∀ input output, (step.2 input output).carried? = some input) :
    Linked Stage.carried? source (chainSteps tag branch source steps) branch := by
  fun_induction chainSteps tag branch source steps with
  | case1 => contradiction
  | case2 source kind make =>
      have same : (make source branch).output = branch := (unary _ List.mem_cons_self _ _).2
      refine .next (carries _ List.mem_cons_self _ _) ?_
      rw [same]
      exact .done branch
  | case3 source kind make rest more target ih =>
      have same : (make source target).output = target := (unary _ List.mem_cons_self _ _).2
      have onward := ih (fun step member => unary step (List.mem_cons_of_mem _ member)) more
        fun step member => carries step (List.mem_cons_of_mem _ member)
      refine .next (carries _ List.mem_cons_self _ _) ?_
      rw [same]
      exact onward

theorem linked_soundSteps {factor : Binary64} (branch source : String) :
    Linked Stage.carried? source (chainSteps tag branch source (soundSteps item factor))
      branch := by
  refine linked_chainSteps branch (Draft.unary_soundSteps item factor) (by simp [soundSteps]) ?_
  intro step member input output
  simp only [soundSteps, List.mem_append, List.mem_singleton] at member
  rcases member with (rfl | volume) | delay
  · rfl
  · split at volume <;> simp_all [Stage.carried?]
  · split at delay <;> simp_all [Stage.carried?]

/-- A sound is cut and, where its item starts late, put off. -/
theorem retimed_soundSteps {factor : Binary64} (branch source : String) (timing : Timing) :
    retimed (chainSteps tag branch source (soundSteps item factor)) timing =
      if 0 < item.startTime then
        (timing.cut (.real item.duration)).putOff (.real (item.startTime * 1000))
      else timing.cut (.real item.duration) := by
  by_cases unchanged : factor.equals 1 = true <;> by_cases late : 0 < item.startTime
  all_goals simp [soundSteps, unchanged, late, chainSteps, retimed, Stage.retime]

/-- By how many seconds the stages of an item put its source off: a moving picture not at all, a
sound by the start of its item, if that is late. A start that is too late in milliseconds has no
such number, and its sound is never heard. -/
def putOff? (kind : MediaKind) (item : TimelineItem) : Option ℚ :=
  if kind ≠ .video ∧ 0 < item.startTime then
    (item.startTime * 1000).toRat?.map (· / 1000)
  else some 0

theorem putOff?_of_video {kind : MediaKind} (video : kind = .video) :
    putOff? kind item = some 0 :=
  if_neg fun late => late.1 video

theorem putOff?_of_early {kind : MediaKind} (early : ¬0 < item.startTime) :
    putOff? kind item = some 0 :=
  if_neg fun late => early late.2

theorem mem_putOff?_of_late {kind : MediaKind} {delay : ℚ} (sound : kind ≠ .video)
    (late : 0 < item.startTime) :
    delay ∈ putOff? kind item ↔ (item.startTime * 1000).toRat? = some (delay * 1000) := by
  rw [putOff?, if_pos ⟨sound, late⟩, Option.mem_def, Option.map_eq_some_iff]
  constructor
  · rintro ⟨value, finite, rfl⟩
    rwa [div_mul_cancel₀ _ (by norm_num)]
  · exact fun finite => ⟨_, finite, mul_div_cancel_right₀ _ (by norm_num)⟩

/-- A sound is put off by the start of its item up to rounding, and not at all for an early
start. -/
theorem abs_putOff?_sub_le {kind : MediaKind} {start delay : ℚ} (sound : kind ≠ .video)
    (starts : item.startTime.toRat? = some start) (delays : delay ∈ putOff? kind item) :
    |delay - max start 0| ≤ max start 0 / 2 ^ (53 : Int) + 2 ^ (-1075 : Int) := by
  have compares := Binary64.lt_iff_of_toRat? Binary64.toRat?_zero starts
  by_cases late : 0 < item.startTime
  · have positive : 0 < start := compares.mp late
    have unsigned := Binary64.unsigned_of_pos starts positive
    have thousand : (1000 : Binary64).toRat? = some 1000 := by decide +kernel
    have nonnegative : 0 ≤ start * 1000 := by positivity
    rw [mem_putOff?_of_late sound late, unsigned.mul_eq starts thousand (by norm_num)] at delays
    have value : Binary64.rounded (start * 1000) = delay * 1000 := by
      rcases Binary64.ofRat_cases nonnegative false with ⟨-, finite⟩ | ⟨-, infinite⟩
      · exact Option.some_inj.mp (finite.symm.trans delays)
      · rw [infinite] at delays
        contradiction
    have near := Binary64.abs_rounded_sub_le nonnegative
    rw [value, ← sub_mul, abs_mul, abs_of_pos (by norm_num : (0 : ℚ) < 1000)] at near
    rw [max_eq_left positive.le]
    have small : (0 : ℚ) < 2 ^ (-1075 : Int) := by positivity
    linarith
  · have early : start ≤ 0 := not_lt.mp fun positive => late (compares.mpr positive)
    rw [putOff?_of_early late] at delays
    obtain rfl := Option.some_inj.mp delays
    rw [max_eq_right early, sub_zero, abs_zero]
    positivity

/-! ## Items -/

/-- Holds where a time of the recording of an item appears at a time of the film: it is put off
first, and then neither the cut nor the window of a moving picture removes it. -/
def Appears (item : TimelineItem) (kind : MediaKind) (recording : Recording)
    (time content : ℚ) : Prop :=
  (∃ delay ∈ putOff? kind item, time = content + delay) ∧ content ∈ recording.frames ∧
    Before (.real item.duration) content ∧
    (kind = .video →
      Between (.real item.startTime) (.real (item.startTime + item.duration)) time)

/-- What stages make of a recording for an item: at which times of the film which times of the
recording are shown, and how far off this is from a recording that begins with its item. -/
structure Presents (item : TimelineItem) (kind : MediaKind) (stages : List Stage) : Prop where
  shown : ∀ (recording : Recording) (time content : ℚ),
    retimed stages recording.timing time content ↔ Appears item kind recording time content
  /-- A moving picture does not begin with its item but with the film. -/
  picture : kind = .video → ∀ (recording : Recording) (time content : ℚ),
    retimed stages recording.timing time content → content = time
  /-- A sound begins with its item up to rounding, and with the film where the start is early. -/
  sound : kind ≠ .video → ∀ start ∈ item.startTime.toRat?,
    ∀ (recording : Recording) (time content : ℚ),
      retimed stages recording.timing time content →
        |content - (time - max start 0)| ≤ max start 0 / 2 ^ (53 : Int) + 2 ^ (-1075 : Int)

theorem presents_of_shown {kind : MediaKind}
    (shown : ∀ (recording : Recording) (time content : ℚ),
      retimed stages recording.timing time content ↔ Appears item kind recording time content) :
    Presents item kind stages where
  shown := shown
  picture video recording time content shows := by
    obtain ⟨⟨delay, delays, rfl⟩, -⟩ := (shown recording time content).mp shows
    rw [putOff?_of_video video] at delays
    obtain rfl := Option.some_inj.mp delays
    exact (add_zero content).symm
  sound sound start starts recording time content shows := by
    obtain ⟨⟨delay, delays, rfl⟩, -⟩ := (shown recording time content).mp shows
    have near := abs_putOff?_sub_le sound starts delays
    rwa [abs_sub_comm, show content + delay - max start 0 - content = delay - max start 0 by ring]

/-- The stages of a moving picture cut its recording and hide it outside its window. -/
theorem presents_video {kind : MediaKind} {trim : Trim} {scale : Scale} {overlay : Overlay}
    (video : kind = .video) (cut : trim.duration = .real item.duration)
    (start : overlay.start = .real item.startTime)
    (finish : overlay.finish = .real (item.startTime + item.duration)) :
    Presents item kind [.trim trim, .scale scale, .overlay overlay] := by
  refine presents_of_shown fun recording time content => ?_
  have composed : retimed [.trim trim, .scale scale, .overlay overlay] recording.timing =
      (recording.timing.cut trim.duration).gated overlay.start overlay.finish := rfl
  rw [composed, Timing.gated, recording.cut_timing, cut, start, finish, Appears,
    putOff?_of_video video]
  simp only [video, Option.mem_def, Option.some.injEq, forall_const, exists_eq_left', add_zero]
  tauto

/-- The stages of a sound cut its recording and put it off. -/
theorem presents_sound {kind : MediaKind} {factor : Binary64} (sound : kind ≠ .video)
    (branch source : String) :
    Presents item kind (chainSteps tag branch source (soundSteps item factor)) := by
  refine presents_of_shown fun recording time content => ?_
  rw [retimed_soundSteps, Appears]
  by_cases late : 0 < item.startTime
  · rw [if_pos late, Timing.putOff]
    simp only [recording.cut_timing, mem_putOff?_of_late sound late, Number.rank?,
      Binary64.rank?_eq_ofRat, sound, false_implies, and_true]
    constructor
    · rintro ⟨value, finite, equal, member, before⟩
      exact ⟨⟨value / 1000, by rwa [div_mul_cancel₀ _ (by norm_num)], by linarith⟩, member, before⟩
    · rintro ⟨⟨delay, finite, rfl⟩, member, before⟩
      exact ⟨delay * 1000, finite, by ring, member, before⟩
  · rw [if_neg late, recording.cut_timing, putOff?_of_early late]
    simp only [sound, Option.mem_def, Option.some.injEq, false_implies, and_true, exists_eq_left',
      add_zero]

/-- Whatever an item of a moving picture or a sound adds carries on what it takes from an input. -/
theorem Addition.presents (addition : Addition context item tag draft next)
    (found : context.library.find? item.mediaId = some media)
    (timed : media.kind = .video ∨ media.kind = .audio ∨ media.kind = .voiceover)
    (contributes : newStages draft next ≠ []) :
    (∃ source final, Takes context item source ∧
      Linked Stage.carried? source (newStages draft next) final) ∧
      Presents item media.kind (newStages draft next) := by
  cases addition with
  | skip => exact absurd (newStages_self draft) contributes
  | image sourced kind =>
      obtain rfl := Option.some_inj.mp (found.symm.trans sourced.found)
      simp [kind] at timed
  | video sourced kind _ _ cut =>
      obtain rfl := Option.some_inj.mp (found.symm.trans sourced.found)
      subst cut
      rw [Draft.overlay, List.append_assoc, newStages_append]
      refine ⟨⟨_, label "overlay" (toString draft.pictures), .picture sourced (.inr kind), ?_⟩,
        presents_video kind rfl rfl rfl⟩
      exact .next rfl (.next rfl (.next rfl (.done _)))
  | sound sourced kind =>
      obtain rfl := Option.some_inj.mp (found.symm.trans sourced.found)
      have sound : media.kind ≠ .video := by rcases kind with kind | kind <;> simp [kind]
      rw [newStages_append]
      exact ⟨⟨_, _, .sound sourced kind, linked_soundSteps _ _⟩, presents_sound sound _ _⟩
  | text found' _ kind =>
      obtain rfl := Option.some_inj.mp (found.symm.trans found')
      simp [kind] at timed
  | boxedText found' _ kind =>
      obtain rfl := Option.some_inj.mp (found.symm.trans found')
      simp [kind] at timed

theorem AddedFor.presents {items : List (TimelineItem × String)} {added : List Stage}
    (addedFor : AddedFor context items (item, tag) added)
    (found : context.library.find? item.mediaId = some media)
    (timed : media.kind = .video ∨ media.kind = .audio ∨ media.kind = .voiceover)
    (contributes : added ≠ []) :
    (∃ source final, Takes context item source ∧ Linked Stage.carried? source added final) ∧
      Presents item media.kind added := by
  cases addedFor with
  | intro place reached compiled =>
      exact (addition_of_addItem compiled).presents found timed contributes

/-- Of every moving picture and every sound in a graph the stages carry on what the item takes from
an input. A sound is heard from the start of its item on, up to rounding, but a moving picture is
shown as if every item started with the film. -/
theorem Graph.presents_of_layers {layers : List Layer} {graph : Graph} {added : List Stage}
    (compiled : Graph.ofLayers context layers = .ok graph)
    (addedFor : AddedFor context (taggedItems layers) (item, tag) added)
    (found : context.library.find? item.mediaId = some media)
    (timed : media.kind = .video ∨ media.kind = .audio ∨ media.kind = .voiceover)
    (contributes : added ≠ []) :
    added <:+: graph.stages ∧
      (∃ source final, Takes context item source ∧ Linked Stage.carried? source added final) ∧
      Presents item media.kind added :=
  ⟨addedFor.infix_stages compiled, addedFor.presents found timed contributes⟩

/-! ## A film that begins late -/

/-- The sample layers compile, and their film, which starts at two seconds, adds stages. -/
theorem exists_addedFor_sampleFilm :
    ∃ graph added, Graph.ofLayers sampleContext sampleLayers = .ok graph ∧ added ≠ [] ∧
      AddedFor sampleContext (taggedItems sampleLayers) (sampleItem "film" 2, itemTag 1 0)
        added := by
  have compiled : (Graph.ofLayers sampleContext sampleLayers).toOption.isSome := by decide +kernel
  obtain ⟨graph, compiled⟩ := Option.isSome_iff_exists.mp compiled
  have reached : ∃ draft ∈ (addItems sampleContext ((taggedItems sampleLayers).take 2)
      (Draft.start sampleContext)).toOption,
      ∃ next ∈ (addItem sampleContext (sampleItem "film" 2) (itemTag 1 0) draft).toOption,
        newStages draft next ≠ [] := by decide +kernel
  obtain ⟨draft, reached, next, added, contributes⟩ := reached
  have place : taggedItems sampleLayers = (taggedItems sampleLayers).take 2 ++
      (sampleItem "film" 2, itemTag 1 0) :: (taggedItems sampleLayers).drop 3 := by decide +kernel
  exact ⟨graph, newStages draft next, mem_toOption.mp compiled, contributes,
    .intro place (mem_toOption.mp reached) (mem_toOption.mp added)⟩

theorem find?_sampleFilm : sampleContext.library.find? (sampleItem "film" 2).mediaId =
    some (sampleAsset "film" .video) := by decide +kernel

theorem presents_sampleFilm :
    ∃ graph added, Graph.ofLayers sampleContext sampleLayers = .ok graph ∧
      added <:+: graph.stages ∧
      (∃ source final, Takes sampleContext (sampleItem "film" 2) source ∧
        Linked Stage.carried? source added final) ∧
      Presents (sampleItem "film" 2) .video added := by
  obtain ⟨graph, added, compiled, contributes, addedFor⟩ := exists_addedFor_sampleFilm
  exact ⟨graph, added, compiled,
    Graph.presents_of_layers compiled addedFor find?_sampleFilm (.inl rfl) contributes⟩

/-- At three seconds the sample film, which starts at two, is in its window and does not show its
first second but its third. -/
theorem late_sampleFilm :
    ∃ graph added, Graph.ofLayers sampleContext sampleLayers = .ok graph ∧
      AddedFor sampleContext (taggedItems sampleLayers) (sampleItem "film" 2, itemTag 1 0) added ∧
      Between (.real 2) (.real (2 + 4)) 3 ∧
      ∃ recording : Recording, 3 - 2 ∈ recording.frames ∧
        retimed added recording.timing 3 3 ∧ ¬retimed added recording.timing 3 (3 - 2) := by
  obtain ⟨graph, added, compiled, contributes, addedFor⟩ := exists_addedFor_sampleFilm
  obtain ⟨-, presents⟩ := addedFor.presents find?_sampleFilm (.inl rfl) contributes
  have two : (2 : Binary64).toRat? = some 2 := by decide +kernel
  have four : (4 : Binary64).toRat? = some 4 := by decide +kernel
  have six : (2 + 4 : Binary64).toRat? = some 6 := by decide +kernel
  have window : Between (.real 2) (.real (2 + 4)) 3 := (between_real two six).mpr (by norm_num)
  let endless : Recording := ⟨0, Set.Ici 0, isLeast_Ici⟩
  have inside : ∀ time : ℚ, 0 ≤ time → time ∈ endless.frames := fun _ => id
  refine ⟨graph, added, compiled, addedFor, window, endless, inside _ (by norm_num), ?_,
    fun shows => ?_⟩
  · refine (presents.shown endless 3 3).mpr ⟨⟨0, putOff?_of_video rfl, (add_zero 3).symm⟩, ?_⟩
    exact ⟨inside 3 (by norm_num), (before_real four).mpr (by norm_num), fun _ => window⟩
  · have same := presents.picture rfl _ _ _ shows
    norm_num at same

end Filter

end Montage
