import Montage.Proofs.Caption.Layout
import Montage.Proofs.Filter.Precision
import Montage.Proofs.Filter.Painting

/-!
# Numbers in filters

A filter is made of pieces: words of its own and the numbers of its stage. All that is written for
its numbers are decimals exactly if the numbers are finite. In a compiled graph these are the length
of the film, the sizes of fonts, which are always finite, and the quantities of the items: the times
between which an item is there, and how it is turned, cut, put off and made loud.
-/

namespace Montage.Filter

variable {context : Context} {item : TimelineItem} {media : MediaItem} {tag : String}
variable {draft next : Draft} {stage : Stage}

/-! ## Pieces -/

/-- A piece of a filter: words, or a number that is written as a numeral. -/
inductive Piece where
  | words (text : String)
  | number (value : Number)
  deriving DecidableEq

/-- What is written for a piece. -/
@[simp] def Piece.text : Piece → Except ArithmeticError String
  | .words text => return text
  | .number value => numeral value

/-- The number of a piece. -/
def Piece.number? : Piece → Option Number
  | .words _ => none
  | .number value => some value

/-- What is written for pieces, one after another. The first number without a numeral decides. -/
@[simp] def writePieces : List Piece → Except ArithmeticError String
  | [] => return ""
  | piece :: rest => do
      let text ← piece.text
      return text ++ (← writePieces rest)

/-- The option that keeps a filter to the time between two others. -/
def enablePieces (start finish : Number) : List Piece :=
  [.words "enable='", .words "between(t,", .number start, .words ",", .number finish,
    .words ")", .words "'"]

/-- The options of a text filter. -/
def DrawText.options (stage : DrawText) : List (List Piece) :=
  let opening : List (List Piece) :=
    [[.words ("drawtext=text='" ++ stage.text ++ "'")],
      [.words "expansion=none"],
      [.words "fontsize=", .number stage.fontSize],
      [.words ("fontcolor=" ++ stage.fontColor)],
      [.words ("fontfile='" ++ escapePath stage.fontFile ++ "'")],
      [.words ("x=" ++ stage.x)],
      [.words ("y=" ++ stage.y)]]
  let spacing : List (List Piece) :=
    if stage.lineSpacing.isZero then []
    else [[.words ("line_spacing=" ++ literal stage.lineSpacing)]]
  let shadow : List (List Piece) :=
    [[.words ("shadowcolor=" ++ stage.shadowColor)],
      [.words ("shadowx=" ++ literal stage.shadowOffset)],
      [.words ("shadowy=" ++ literal stage.shadowOffset)]]
  opening ++ spacing ++ shadow ++ [enablePieces stage.start stage.finish]

/-- The pieces of the filter of a stage. -/
def Stage.pieces : Stage → List Piece
  | .background stage =>
      [.words ("color=" ++ stage.color ++ ":size=" ++ literal stage.width ++ "x" ++
          literal stage.height ++ ":duration="),
        .number stage.duration, .words (":rate=" ++ literal stage.rate)]
  | .trim stage =>
      if stage.audio then
        [.words "atrim=duration=", .number stage.duration, .words ", asetpts=PTS-STARTPTS"]
      else [.words "trim=duration=", .number stage.duration, .words ", setpts=PTS-STARTPTS"]
  | .scale stage =>
      .words ("scale=" ++ literal stage.width ++ ":" ++ literal stage.height ++
        ":force_original_aspect_ratio=decrease") ::
      if stage.rotation.isZero then []
      else [.words ",format=rgba,rotate=", .number stage.rotation,
        .words "*PI/180:ow='hypot(iw,ih)':oh='hypot(iw,ih)':fillcolor=none"]
  | .overlay stage =>
      .words ("overlay=" ++ literal stage.x ++ ":" ++ literal stage.y ++ ":") ::
        enablePieces stage.start stage.finish
  | .drawBox stage =>
      .words ("drawbox=x=" ++ literal stage.x ++ ":y=" ++ literal stage.y ++ ":w=" ++
        literal stage.width ++ ":h=" ++ literal stage.height ++ ":color=" ++ stage.color ++
        ":t=fill:") :: enablePieces stage.start stage.finish
  | .drawText stage => [Piece.words ":"].intercalate stage.options
  | .volume stage => [.words "volume=", .number stage.factor]
  | .delay stage =>
      [.words "adelay=", .number stage.milliseconds, .words "|", .number stage.milliseconds]
  | .mix stage =>
      [.words ("amix=inputs=" ++ toString stage.inputs.length ++ ":duration=" ++ stage.duration)]

/-- The filter of a stage is what is written for its pieces. -/
theorem Stage.body_eq (stage : Stage) : stage.body = writePieces stage.pieces := by
  -- Literals are not joined: checking that takes longer than everything else.
  cases stage with
  | background stage => simp [body, pieces, String.append_assoc, -String.reduceAppend]
  | trim stage =>
      cases audio : stage.audio
      all_goals simp [body, pieces, trimBody, String.append_assoc, audio, -String.reduceAppend]
  | scale stage =>
      by_cases level : stage.rotation.isZero = true
      all_goals simp [body, pieces, scaleBody, String.append_assoc, level, -String.reduceAppend]
  | overlay stage =>
      simp [body, pieces, enableOption, enableWindow, enablePieces, String.append_assoc,
        -String.reduceAppend]
  | drawBox stage =>
      simp [body, pieces, enableOption, enableWindow, enablePieces, String.append_assoc,
        -String.reduceAppend]
  | drawText stage =>
      by_cases tight : stage.lineSpacing.isZero = true
      all_goals
        simp [body, pieces, drawTextOptions, DrawText.options, enableOption, enableWindow,
          enablePieces, String.append_assoc, tight, -String.reduceAppend]
  | volume stage => simp [body, pieces, -String.reduceAppend]
  | delay stage =>
      -- The numeral is worked out once and written twice.
      simp only [body, pieces, writePieces, Piece.text]
      cases numeral stage.milliseconds with
      | error cause => rfl
      | ok milliseconds =>
          simp only [pure_bind, bind_pure_comp, map_pure, String.append_assoc, String.append_empty]
          rfl
  | mix stage =>
      simp only [body, pieces, writePieces, Piece.text]
      exact congrArg Except.ok String.append_empty.symm

/-! ## Decimals -/

/-- Holds of a text and the pieces that it is written for, if every numeral in it is a decimal. -/
inductive Spells : List Piece → String → Prop where
  | nil : Spells [] ""
  | words {pieces : List Piece} {rest : String} (text : String) (more : Spells pieces rest) :
      Spells (.words text :: pieces) (text ++ rest)
  | number {pieces : List Piece} {value : Number} {text rest : String}
      (written : numeral value = .ok text) (decimal : IsDecimal text.toList)
      (more : Spells pieces rest) : Spells (.number value :: pieces) (text ++ rest)

/-- A stage whose filter exists and holds decimals for all its numbers. -/
def Stage.WritesDecimals (stage : Stage) : Prop :=
  ∃ body, stage.body = .ok body ∧ Spells stage.pieces body

/-- The numbers of a stage that its filter holds as numerals. -/
def Stage.numbers (stage : Stage) : List Number :=
  stage.pieces.filterMap Piece.number?

theorem Spells.isFinite {pieces : List Piece} {text : String} (spells : Spells pieces text) :
    ∀ number ∈ pieces.filterMap Piece.number?, number.IsFinite := by
  induction spells with
  | nil => exact List.forall_mem_nil _
  | words text _ ih => exact ih
  | number written decimal _ ih =>
      exact List.forall_mem_cons.mpr ⟨hasDecimal_iff.mp ⟨_, written, decimal⟩, ih⟩

theorem exists_spells {pieces : List Piece}
    (finite : ∀ number ∈ pieces.filterMap Piece.number?, number.IsFinite) :
    ∃ text, writePieces pieces = .ok text ∧ Spells pieces text := by
  induction pieces with
  | nil => exact ⟨"", rfl, .nil⟩
  | cons piece rest ih =>
      cases piece with
      | words text =>
          obtain ⟨more, written, spells⟩ := ih finite
          exact ⟨_, bind_eq_ok.mpr ⟨text, rfl, bind_eq_ok.mpr ⟨more, written, rfl⟩⟩,
            .words text spells⟩
      | number value =>
          obtain ⟨first, others⟩ := List.forall_mem_cons.mp finite
          obtain ⟨text, spelled, decimal⟩ := hasDecimal_iff.mpr first
          obtain ⟨more, written, spells⟩ := ih others
          exact ⟨_, bind_eq_ok.mpr ⟨text, spelled, bind_eq_ok.mpr ⟨more, written, rfl⟩⟩,
            .number spelled decimal spells⟩

/-- A filter holds decimals exactly if its numbers are finite. -/
theorem Stage.writesDecimals_iff :
    stage.WritesDecimals ↔ ∀ number ∈ stage.numbers, number.IsFinite := by
  constructor
  · rintro ⟨body, -, spells⟩
    exact spells.isFinite
  · intro finite
    rw [WritesDecimals, Stage.body_eq]
    exact exists_spells finite

namespace Stage

@[simp] theorem writesDecimals_background {stage : Background} :
    (background stage).WritesDecimals ↔ stage.duration.IsFinite := by
  simp [writesDecimals_iff, numbers, pieces, Piece.number?]

@[simp] theorem writesDecimals_trim {stage : Trim} :
    (trim stage).WritesDecimals ↔ stage.duration.IsFinite := by
  rw [writesDecimals_iff, numbers, pieces]
  split <;> simp [Piece.number?]

@[simp] theorem writesDecimals_scale {stage : Scale} :
    (scale stage).WritesDecimals ↔ stage.rotation.IsFinite := by
  rw [writesDecimals_iff, numbers, pieces]
  split
  next level => simp [Piece.number?, Number.isFinite_of_isZero level]
  next => simp [Piece.number?]

@[simp] theorem writesDecimals_overlay {stage : Overlay} :
    (overlay stage).WritesDecimals ↔ stage.start.IsFinite ∧ stage.finish.IsFinite := by
  rw [writesDecimals_iff]
  change (∀ number ∈ [stage.start, stage.finish], number.IsFinite) ↔ _
  simp

@[simp] theorem writesDecimals_drawBox {stage : DrawBox} :
    (drawBox stage).WritesDecimals ↔ stage.start.IsFinite ∧ stage.finish.IsFinite := by
  rw [writesDecimals_iff]
  change (∀ number ∈ [stage.start, stage.finish], number.IsFinite) ↔ _
  simp

@[simp] theorem writesDecimals_drawText {stage : DrawText} :
    (drawText stage).WritesDecimals ↔
      stage.fontSize.IsFinite ∧ stage.start.IsFinite ∧ stage.finish.IsFinite := by
  rw [writesDecimals_iff, numbers, pieces, DrawText.options]
  split
  all_goals
    change (∀ number ∈ [stage.fontSize, stage.start, stage.finish], number.IsFinite) ↔ _
    simp

@[simp] theorem writesDecimals_volume {stage : Volume} :
    (volume stage).WritesDecimals ↔ stage.factor.IsFinite := by
  simp [writesDecimals_iff, numbers, pieces, Piece.number?]

@[simp] theorem writesDecimals_delay {stage : Delay} :
    (delay stage).WritesDecimals ↔ stage.milliseconds.IsFinite := by
  simp [writesDecimals_iff, numbers, pieces, Piece.number?]

@[simp] theorem writesDecimals_mix {stage : Mix} : (mix stage).WritesDecimals := by
  simp [writesDecimals_iff, numbers, pieces, Piece.number?]

end Stage

/-! ## Quantities of items -/

/-- By how much the picture of an item is turned. -/
def turn (item : TimelineItem) (media : MediaItem) : Binary64 :=
  Binary64.unlessZero (Geometry.effective item.geometry (some media)).rotation 0

/-- The quantities of an item that shows a picture. -/
def pictureQuantities (item : TimelineItem) (media : MediaItem) : List Number :=
  [.real (turn item media), .real item.startTime, .real (item.startTime + item.duration)]

/-- The quantities of an item that makes a sound. -/
def soundQuantities (item : TimelineItem) (media : MediaItem) : List Number :=
  let delay : List Number :=
    if 0 < item.startTime then [.real (item.startTime * 1000)] else []
  [.real item.duration, .real ((loudness media).quotient 100)] ++ delay

/-- The quantities of an item that shows a text. -/
def textQuantities (context : Context) (item : TimelineItem) (media : MediaItem) : List Number :=
  match textWindow context item media with
  | .ok (start, finish) => [start, finish]
  | .error _ => []

/-- The quantities of an item. An item that is passed over has none. -/
def quantities (context : Context) (item : TimelineItem) : List Number :=
  match context.library.find? item.mediaId with
  | none => []
  | some media =>
      match context.sources.find? media.id, media.kind with
      | none, _ => []
      | some _, .text =>
          if (Caption.sanitize (media.text.getD "").toList).isEmpty then []
          else textQuantities context item media
      | some .drawn, _ => []
      | some (.input _), .image => pictureQuantities item media
      | some (.input _), .video =>
          if item.duration ≤ 0 then [] else .real item.duration :: pictureQuantities item media
      | some (.input _), .audio | some (.input _), .voiceover =>
          if media.muted || (loudness media).isZero || decide (item.duration ≤ 0) then []
          else soundQuantities item media

theorem quantities_of_skipped (skipped : Skipped context item) : quantities context item = [] := by
  match skipped with
  | .unknown missing => simp [quantities, missing]
  | .unsourced found missing => simp [quantities, found, missing]
  | @Skipped.fileless _ _ media found source notText =>
      cases kind : media.kind <;> simp_all [quantities]
  | @Skipped.over _ _ media found kind instant =>
      rcases source : context.sources.find? media.id with _ | _ | position
      all_goals rcases kind with kind | kind | kind
      all_goals simp [quantities, found, source, kind, instant]
  | @Skipped.silent _ _ media found kind mute =>
      rcases source : context.sources.find? media.id with _ | _ | position
      all_goals rcases kind with kind | kind
      all_goals simp [quantities, found, source, kind, mute]
  | @Skipped.wordless _ _ media _ found kind _ captionless =>
      have wordless := Caption.sanitize_eq_nil_of_ofMedia? captionless
      rcases source : context.sources.find? media.id with _ | _ | position
      all_goals simp [quantities, found, source, kind, wordless]

theorem rotation_of_resolve {frame : FrameSize} {rect : PixelRect}
    (placed : Geometry.resolve item.geometry (some media) frame = .ok rect) :
    rect.rotation = turn item media := by
  obtain ⟨left, -, rest⟩ := bind_eq_ok.mp placed
  obtain ⟨top, -, rest⟩ := bind_eq_ok.mp rest
  obtain ⟨width, -, rest⟩ := bind_eq_ok.mp rest
  obtain ⟨height, -, equal⟩ := bind_eq_ok.mp rest
  cases equal
  rfl

/-! ## Moderate items -/

/-- An item whose numbers are moderate. -/
structure ModerateItem (item : TimelineItem) : Prop where
  start : item.startTime.IsModerate
  duration : item.duration.IsModerate
  rotation : ∀ geometry ∈ item.geometry, ∀ angle ∈ geometry.rotation, angle.IsModerate

/-- An asset whose numbers are moderate, as far as they are quantities of an item. -/
structure ModerateAsset (media : MediaItem) : Prop where
  volume : ∀ percent ∈ media.volume, percent.IsModerate
  duration : ∀ duration ∈ media.duration, duration.IsModerate

theorem isFinite_turn (moderate : ModerateItem item) : (turn item media).IsFinite := by
  have level : (0 : Binary64).IsFinite := by decide +kernel
  rw [turn]
  cases placed : item.geometry with
  | none =>
      change (Binary64.unlessZero (some 0) 0).IsFinite
      decide +kernel
  | some geometry =>
      cases turned : geometry.rotation with
      | none => simpa [Geometry.effective, Binary64.unlessZero, turned] using level
      | some angle =>
          simp only [Geometry.effective, Binary64.unlessZero, turned]
          split
          · exact level
          · exact (moderate.rotation _ placed _ turned).isFinite

theorem isFinite_pictureQuantities (moderate : ModerateItem item) :
    ∀ quantity ∈ pictureQuantities item media, quantity.IsFinite := by
  simp only [pictureQuantities, List.forall_mem_cons, Number.isFinite_real]
  exact ⟨isFinite_turn moderate, moderate.start.isFinite, moderate.start.add moderate.duration,
    List.forall_mem_nil _⟩

theorem isFinite_soundQuantities (moderate : ModerateItem item) (asset : ModerateAsset media) :
    ∀ quantity ∈ soundQuantities item media, quantity.IsFinite := by
  have hundred : (100 : Binary64).toRat? = some 100 := by decide +kernel
  have thousand : (1000 : Binary64).toRat? = some 1000 := by decide +kernel
  have loud : (loudness media).IsModerate := by
    rw [loudness]
    cases given : media.volume with
    | none => exact ⟨100, hundred, by decide +kernel⟩
    | some percent => exact asset.volume percent given
  have late := moderate.start.mul thousand (by norm_num)
  simp only [soundQuantities, List.forall_mem_append, List.forall_mem_cons, Number.isFinite_real]
  refine ⟨⟨moderate.duration.isFinite, loud.quotient hundred (by norm_num),
    List.forall_mem_nil _⟩, ?_⟩
  split
  · simpa using late
  · exact List.forall_mem_nil _

/-- A moderate sum is finite, also where its first part is an integer. -/
theorem isFinite_add {start sum : Number} {first duration : Binary64}
    (counts : start.toBinary64 = .ok first) (moderate : first.IsModerate)
    (moderate' : duration.IsModerate) (added : start.add (.real duration) = .ok sum) :
    sum.IsFinite := by
  cases start with
  | int value =>
      obtain ⟨first', converted, equal⟩ := bind_eq_ok.mp added
      cases equal
      cases counts.symm.trans converted
      exact moderate.add moderate'
  | real value =>
      cases counts
      cases added
      exact moderate.add moderate'

theorem isFinite_textQuantities (moderate : ModerateItem item) (asset : ModerateAsset media)
    {standard : Binary64} (usual : context.textDuration = .real standard)
    (lasting : standard.IsModerate) :
    ∀ quantity ∈ textQuantities context item media, quantity.IsFinite := by
  have begins : ∃ first : Binary64, first.IsModerate ∧
      (if item.startTime.isZero then 0 else .real item.startTime : Number).toBinary64 =
        .ok first ∧
      (if item.startTime.isZero then 0 else .real item.startTime : Number).IsFinite := by
    split
    · exact ⟨0, ⟨0, Binary64.toRat?_zero, by decide +kernel⟩, by decide +kernel⟩
    · exact ⟨_, moderate.start, rfl, moderate.start.isFinite⟩
  rw [textQuantities]
  cases window : textWindow context item media with
  | error cause => exact List.forall_mem_nil _
  | ok times =>
      obtain ⟨sum, added, equal⟩ := bind_eq_ok.mp window
      cases equal
      obtain ⟨first, firstModerate, counts, finite⟩ := begins
      generalize (if item.startTime.isZero then 0 else .real item.startTime : Number) = start
        at added counts finite ⊢
      have ends : sum.IsFinite := by
        split at added
        · split at added
          next duration given =>
            have known := asset.duration _ (Option.filter_eq_some_iff.mp given).1
            exact isFinite_add counts firstModerate known added
          next => exact isFinite_add counts firstModerate lasting (usual ▸ added)
        · exact isFinite_add counts firstModerate moderate.duration added
      simpa using ⟨finite, ends⟩

/-- The quantities of a moderate item are finite. -/
theorem isFinite_quantities (moderate : ModerateItem item)
    (asset : ∀ media, context.library.find? item.mediaId = some media → ModerateAsset media)
    {standard : Binary64} (usual : context.textDuration = .real standard)
    (lasting : standard.IsModerate) :
    ∀ quantity ∈ quantities context item, quantity.IsFinite := by
  have picture (media : MediaItem) :
      ∀ quantity ∈ pictureQuantities item media, quantity.IsFinite :=
    isFinite_pictureQuantities moderate
  rw [quantities]
  split
  next => exact List.forall_mem_nil _
  next media found =>
    split
    next => exact List.forall_mem_nil _
    next =>
      split
      · exact List.forall_mem_nil _
      · exact isFinite_textQuantities moderate (asset media found) usual lasting
    next => exact List.forall_mem_nil _
    next => exact picture media
    next =>
      split
      · exact List.forall_mem_nil _
      · exact List.forall_mem_cons.mpr ⟨moderate.duration.isFinite, picture media⟩
    all_goals
      split
      · exact List.forall_mem_nil _
      · exact isFinite_soundQuantities moderate (asset media found)

/-! ## Compiled items -/

theorem writesDecimals_soundSteps {factor : Binary64} {branch source : String} :
    (∀ stage ∈ chainSteps tag branch source (soundSteps item factor), stage.WritesDecimals) ↔
      item.duration.IsFinite ∧ factor.IsFinite ∧
        (0 < item.startTime → (item.startTime * 1000).IsFinite) := by
  have whole (unchanged : factor.equals 1 = true) : factor.IsFinite := by
    rw [Binary64.eq_one_of_equals unchanged]
    decide +kernel
  by_cases unchanged : factor.equals 1 = true <;> by_cases late : 0 < item.startTime
  · simp [soundSteps, chainSteps, unchanged, late, whole]
  · simp [soundSteps, chainSteps, unchanged, late, whole]
  · simp [soundSteps, chainSteps, unchanged, late]
  · simp [soundSteps, chainSteps, unchanged, late]

/-- The size of the text of a caption is finite. -/
theorem Draws.isFinite_fontSize {caption : Caption} {drawText : DrawText} {rect : PixelRect}
    (draws : Draws context item media caption drawText)
    (captioned :
      Caption.ofMedia? context.metrics context.platform media rect = .ok (some caption)) :
    drawText.fontSize.IsFinite := by
  obtain ⟨atLeast, atMost⟩ := Caption.fontSize_mem_of_ofMedia? captioned
  rw [draws.fontSize]
  exact Binary64.isFinite_of_le_of_le atLeast atMost (by decide +kernel) (by decide +kernel)

theorem textQuantities_of_draws {caption : Caption} {drawText : DrawText}
    (draws : Draws context item media caption drawText) :
    textQuantities context item media = [drawText.start, drawText.finish] := by
  rw [textQuantities, draws.timed]

namespace Addition

/-- What is written for an item are decimals exactly if its quantities are finite. -/
theorem writesDecimals_iff (addition : Addition context item tag draft next) :
    (∀ stage ∈ newStages draft next, stage.WritesDecimals) ↔
      ∀ quantity ∈ quantities context item, quantity.IsFinite := by
  cases addition with
  | skip reason => simp [quantities_of_skipped reason]
  | image sourced kind placed =>
      rw [Draft.overlay, List.append_assoc, newStages_append]
      simp [quantities, sourced.found, sourced.source, kind, pictureQuantities,
        rotation_of_resolve placed]
  | video sourced kind lasting placed cut =>
      rw [Draft.overlay, List.append_assoc, newStages_append]
      simp [quantities, sourced.found, sourced.source, kind, lasting, pictureQuantities,
        rotation_of_resolve placed, cut]
  | @sound media position factor sourced kind audible lasting scaled =>
      rw [newStages_append, writesDecimals_soundSteps]
      have same : (loudness media).quotient 100 = factor := by
        rw [Binary64.div] at scaled
        split at scaled
        · cases scaled
        · exact Except.ok.inj scaled
      simp only [Bool.or_eq_true, not_or, Bool.not_eq_true] at audible
      rcases kind with kind | kind
      all_goals
        simp [quantities, sourced.found, sourced.source, kind, lasting, audible, soundQuantities,
          same]
  | text found source kind _ _ _ captioned _ draws =>
      have worded := (Caption.describes_of_ofMedia? captioned).nonempty
      rw [newStages_append]
      simp [quantities, found, source, kind, worded, textQuantities_of_draws draws,
        draws.isFinite_fontSize captioned]
  | boxedText found source kind _ _ _ _ _ captioned fills draws =>
      have worded := (Caption.describes_of_ofMedia? captioned).nonempty
      rw [List.append_assoc, newStages_append]
      simp [quantities, found, source, kind, worded, textQuantities_of_draws draws,
        draws.isFinite_fontSize captioned, fills.timed]

end Addition

/-! ## Compiled graphs -/

variable {items : List (TimelineItem × String)} {layers : List Layer} {graph : Graph}

/-- What is written for items are decimals exactly if the quantities of each are finite. -/
theorem writesDecimals_addItems (compiled : addItems context items draft = .ok next) :
    (∀ stage ∈ next.stages, stage.WritesDecimals) ↔
      (∀ stage ∈ draft.stages, stage.WritesDecimals) ∧
        ∀ entry ∈ items, ∀ quantity ∈ quantities context entry.1, quantity.IsFinite := by
  induction items generalizing draft with
  | nil =>
      cases compiled
      simp
  | cons entry rest ih =>
      obtain ⟨middle, added, compiled⟩ := bind_eq_ok.mp compiled
      have addition := addition_of_addItem added
      rw [ih compiled, addition.stages_eq, List.forall_mem_append, addition.writesDecimals_iff,
        List.forall_mem_cons, and_assoc]

/-- The script of a compiled graph holds decimals for all its numbers exactly if the length of the
film and the quantities of all items of visible layers are finite. -/
theorem Graph.writesDecimals_iff (compiled : Graph.ofLayers context layers = .ok graph) :
    (∀ stage ∈ graph.stages, stage.WritesDecimals) ↔
      context.totalDuration.IsFinite ∧
        ∀ item ∈ (layers.filter (·.visible)).flatMap (·.items),
          ∀ quantity ∈ quantities context item, quantity.IsFinite := by
  obtain ⟨draft, items, equal⟩ := bind_eq_ok.mp compiled
  cases equal
  have finished : (∀ stage ∈ draft.finish.stages, stage.WritesDecimals) ↔
      ∀ stage ∈ draft.stages, stage.WritesDecimals := by
    match branches : draft.audioBranches with
    | [] => simp [Draft.finish, branches]
    | [branch] => simp [Draft.finish, branches]
    | first :: second :: rest => simp [Draft.finish, branches, or_imp, forall_and]
  rw [finished, writesDecimals_addItems items, ← map_fst_taggedItems, List.forall_mem_map]
  simp [Draft.start]

end Montage.Filter
