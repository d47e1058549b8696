import Montage.Proofs.Filter.Label

/-!
# What an item adds

Compiling an item leaves the draft as it is, lays a picture over it, draws a text on it, or adds a
branch of sound. The cases below say with which labels, and under which conditions, each happens.
Everything about compiled graphs is derived from them.
-/

namespace Montage.Filter

variable {context : Context} {item : TimelineItem} {tag : String} {draft next : Draft}

/-- The reasons for which an item is passed over. -/
inductive Skipped (context : Context) (item : TimelineItem) : Prop where
  | unknown (missing : context.library.find? item.mediaId = none)
  | unsourced {media : MediaItem} (found : context.library.find? item.mediaId = some media)
      (missing : context.sources.find? media.id = none)
  /-- The asset needs an input and is marked as one that has none. -/
  | fileless {media : MediaItem} (found : context.library.find? item.mediaId = some media)
      (source : context.sources.find? media.id = some .drawn) (kind : media.kind ≠ .text)
  | over {media : MediaItem} (found : context.library.find? item.mediaId = some media)
      (kind : media.kind = .video ∨ media.kind = .audio ∨ media.kind = .voiceover)
      (instant : item.duration ≤ 0)
  | silent {media : MediaItem} (found : context.library.find? item.mediaId = some media)
      (kind : media.kind = .audio ∨ media.kind = .voiceover)
      (mute : (media.muted || (loudness media).isZero) = true)
  | wordless {media : MediaItem} {rect : PixelRect}
      (found : context.library.find? item.mediaId = some media) (kind : media.kind = .text)
      (placed : Geometry.resolve item.geometry (some media) context.frame = .ok rect)
      (captionless : Caption.ofMedia? context.metrics context.platform media rect = .ok none)

/-- The asset of an item and the input that it comes from. -/
structure SourcedBy (context : Context) (item : TimelineItem) (media : MediaItem)
    (position : Int) : Prop where
  found : context.library.find? item.mediaId = some media
  source : context.sources.find? media.id = some (.input position)

/-- A text stage that draws the caption of an asset, while the item lasts. -/
structure Draws (context : Context) (item : TimelineItem) (media : MediaItem) (caption : Caption)
    (drawText : DrawText) : Prop where
  timed : textWindow context item media = .ok (drawText.start, drawText.finish)
  spaced : ∃ spacing, caption.layout.lineSpacing = .ok spacing ∧
    drawText.lineSpacing = .int spacing
  text : drawText.text = caption.text
  fontSize : drawText.fontSize = .real caption.layout.fontSize
  fontColor : drawText.fontColor = caption.fontColor
  fontFile : drawText.fontFile = caption.fontFile
  position : drawText.x = caption.xExpression ∧ drawText.y = caption.yExpression
  shadow : drawText.shadowColor = "black" ∧ drawText.shadowOffset = 2

/-- A rectangle that fills the box of a text, while the text is there. -/
structure Fills (rect : PixelRect) (caption : Caption) (drawText : DrawText) (drawBox : DrawBox) :
    Prop where
  corner : drawBox.x = .int rect.x ∧ drawBox.y = .int rect.y
  size : drawBox.width = .int rect.width ∧ drawBox.height = .int rect.height
  color : caption.backgroundColor = some drawBox.color
  timed : drawBox.start = drawText.start ∧ drawBox.finish = drawText.finish

/-- What compiling an item does to a draft. -/
inductive Addition (context : Context) (item : TimelineItem) (tag : String) (draft : Draft) :
    Draft → Prop where
  | skip (reason : Skipped context item) : Addition context item tag draft draft
  | image {media : MediaItem} {position : Int} {rect : PixelRect}
      (sourced : SourcedBy context item media position) (kind : media.kind = .image)
      (placed : Geometry.resolve item.geometry (some media) context.frame = .ok rect) :
      Addition context item tag draft
        (draft.overlay [] (videoStream position) rect item tag)
  | video {media : MediaItem} {position : Int} {rect : PixelRect} {trim : Trim}
      (sourced : SourcedBy context item media position) (kind : media.kind = .video)
      (lasting : ¬item.duration ≤ 0)
      (placed : Geometry.resolve item.geometry (some media) context.frame = .ok rect)
      (cut : trim = { input := videoStream position, output := label "trim" tag
                      duration := .real item.duration }) :
      Addition context item tag draft
        (draft.overlay [.trim trim] (label "trim" tag) rect item tag)
  | sound {media : MediaItem} {position : Int} {factor : Binary64}
      (sourced : SourcedBy context item media position)
      (kind : media.kind = .audio ∨ media.kind = .voiceover)
      (audible : ¬(media.muted || (loudness media).isZero) = true)
      (lasting : ¬item.duration ≤ 0) (scaled : (loudness media).div 100 = .ok factor) :
      Addition context item tag draft
        { draft with
          stages := draft.stages ++
            chainSteps tag (label "audio" tag) (audioStream position) (soundSteps item factor)
          audioBranches := draft.audioBranches ++ [label "audio" tag] }
  | text {media : MediaItem} {source : Source} {rect : PixelRect} {caption : Caption}
      {drawText : DrawText} (found : context.library.find? item.mediaId = some media)
      (source : context.sources.find? media.id = some source) (kind : media.kind = .text)
      (input : drawText.input = draft.video)
      (output : drawText.output = label "text" (toString draft.pictures))
      (placed : Geometry.resolve item.geometry (some media) context.frame = .ok rect)
      (captioned : Caption.ofMedia? context.metrics context.platform media rect = .ok (some caption))
      (unfilled : caption.backgroundColor = none)
      (draws : Draws context item media caption drawText) :
      Addition context item tag draft
        { draft with
          stages := draft.stages ++ [.drawText drawText]
          video := drawText.output
          pictures := draft.pictures + 1 }
  | boxedText {media : MediaItem} {source : Source} {rect : PixelRect} {caption : Caption}
      {drawBox : DrawBox} {drawText : DrawText}
      (found : context.library.find? item.mediaId = some media)
      (source : context.sources.find? media.id = some source) (kind : media.kind = .text)
      (boxInput : drawBox.input = draft.video)
      (boxOutput : drawBox.output = label "bgbox" (toString draft.pictures))
      (input : drawText.input = drawBox.output)
      (output : drawText.output = label "text" (toString (draft.pictures + 1)))
      (placed : Geometry.resolve item.geometry (some media) context.frame = .ok rect)
      (captioned : Caption.ofMedia? context.metrics context.platform media rect = .ok (some caption))
      (fills : Fills rect caption drawText drawBox)
      (draws : Draws context item media caption drawText) :
      Addition context item tag draft
        { draft with
          stages := draft.stages ++ [.drawBox drawBox] ++ [.drawText drawText]
          video := drawText.output
          pictures := draft.pictures + 1 + 1 }

/-! ## Stages of a sound -/

/-- The stages that a sound of an item may consist of, each with the reason for which it is
there. -/
inductive SoundStage (item : TimelineItem) (factor : Binary64) : Stage → Prop where
  | cut (input output : String) :
      SoundStage item factor
        (.trim { input := input, output := output, duration := .real item.duration, audio := true })
  | volume (input output : String) (changing : ¬factor.equals 1 = true) :
      SoundStage item factor (.volume { input := input, output := output, factor := .real factor })
  | delay (input output : String) (late : 0 < item.startTime) :
      SoundStage item factor
        (.delay { input := input, output := output, milliseconds := .real (item.startTime * 1000) })

/-- A stage of a chain is one of its steps between two labels. -/
theorem exists_step_of_mem_chainSteps {steps : List (String × (String → String → Stage))}
    {branch source : String} {stage : Stage} (member : stage ∈ chainSteps tag branch source steps) :
    ∃ step ∈ steps, ∃ input output, stage = step.2 input output := by
  fun_induction chainSteps tag branch source steps with
  | case1 => contradiction
  | case2 source kind make =>
      exact ⟨_, List.mem_cons_self, source, branch, List.mem_singleton.mp member⟩
  | case3 source kind make rest more target ih =>
      rcases List.mem_cons.mp member with rfl | later
      · exact ⟨_, List.mem_cons_self, source, target, rfl⟩
      · obtain ⟨step, listed, made⟩ := ih later
        exact ⟨step, List.mem_cons_of_mem _ listed, made⟩

theorem soundStage_of_mem_chainSteps {factor : Binary64} {branch source : String} {stage : Stage}
    (member : stage ∈ chainSteps tag branch source (soundSteps item factor)) :
    SoundStage item factor stage := by
  obtain ⟨step, listed, input, output, rfl⟩ := exists_step_of_mem_chainSteps member
  simp only [soundSteps, List.mem_append, List.mem_singleton] at listed
  rcases listed with (rfl | volume) | delay
  · exact .cut input output
  · split at volume
    next => contradiction
    next changing =>
      rw [List.mem_singleton.mp volume]
      exact .volume input output changing
  · split at delay
    next late =>
      rw [List.mem_singleton.mp delay]
      exact .delay input output late
    next => contradiction

/-! ## One lemma for each kind of asset -/

theorem addition_of_addImage {media : MediaItem} {position : Int}
    (sourced : SourcedBy context item media position) (kind : media.kind = .image)
    (added : addImage context item media position tag draft = .ok next) :
    Addition context item tag draft next := by
  obtain ⟨rect, placed, equal⟩ := bind_eq_ok.mp added
  cases equal
  exact .image sourced kind placed

theorem addition_of_addVideo {media : MediaItem} {position : Int}
    (sourced : SourcedBy context item media position) (kind : media.kind = .video)
    (added : addVideo context item media position tag draft = .ok next) :
    Addition context item tag draft next := by
  simp only [addVideo] at added
  split at added
  next instant =>
    cases added
    exact .skip (.over sourced.found (.inl kind) instant)
  next lasting =>
    obtain ⟨rect, placed, equal⟩ := bind_eq_ok.mp added
    cases equal
    exact .video sourced kind lasting placed rfl

theorem addition_of_addAudio {media : MediaItem} {position : Int}
    (sourced : SourcedBy context item media position)
    (kind : media.kind = .audio ∨ media.kind = .voiceover)
    (added : addAudio item media position tag draft = .ok next) :
    Addition context item tag draft next := by
  simp only [addAudio] at added
  split at added
  next mute =>
    cases added
    exact .skip (.silent sourced.found kind mute)
  next audible =>
    split at added
    next instant =>
      cases added
      exact .skip (.over sourced.found (.inr kind) instant)
    next lasting =>
      obtain ⟨factor, scaled, equal⟩ := bind_eq_ok.mp added
      cases equal
      exact .sound sourced kind audible lasting scaled

theorem addition_of_addText {media : MediaItem} {source : Source}
    (found : context.library.find? item.mediaId = some media)
    (sourced : context.sources.find? media.id = some source) (kind : media.kind = .text)
    (added : addText context item media draft = .ok next) :
    Addition context item tag draft next := by
  obtain ⟨rect, placed, rest⟩ := bind_eq_ok.mp added
  obtain ⟨caption?, captioned, rest⟩ := bind_eq_ok.mp rest
  cases caption? with
  | none =>
      cases rest
      exact .skip (.wordless found kind placed captioned)
  | some caption =>
      obtain ⟨⟨start, finish⟩, timed, rest⟩ := bind_eq_ok.mp rest
      obtain ⟨spacing, spaced, equal⟩ := bind_eq_ok.mp rest
      cases equal
      cases background : caption.backgroundColor with
      | none =>
          exact .text found sourced kind rfl rfl placed captioned background
            ⟨timed, ⟨spacing, spaced, rfl⟩, rfl, rfl, rfl, rfl, ⟨rfl, rfl⟩, ⟨rfl, rfl⟩⟩
      | some color =>
          exact .boxedText found sourced kind rfl rfl rfl rfl placed captioned
            ⟨⟨rfl, rfl⟩, ⟨rfl, rfl⟩, background, ⟨rfl, rfl⟩⟩
            ⟨timed, ⟨spacing, spaced, rfl⟩, rfl, rfl, rfl, rfl, ⟨rfl, rfl⟩, ⟨rfl, rfl⟩⟩

/-- Compiling an item does one of the things listed. -/
theorem addition_of_addItem (added : addItem context item tag draft = .ok next) :
    Addition context item tag draft next := by
  simp only [addItem] at added
  split at added
  next missing =>
    cases added
    exact .skip (.unknown missing)
  next media found =>
    split at added
    next missing =>
      cases added
      exact .skip (.unsourced found missing)
    next source kind => exact addition_of_addText found source kind added
    next source notText =>
      cases added
      exact .skip (.fileless found source notText)
    next position source kind => exact addition_of_addImage ⟨found, source⟩ kind added
    next position source kind => exact addition_of_addVideo ⟨found, source⟩ kind added
    next position source kind => exact addition_of_addAudio ⟨found, source⟩ (.inl kind) added
    next position source kind => exact addition_of_addAudio ⟨found, source⟩ (.inr kind) added

/-! ## The stages of one item -/

/-- What a stage is that compiling an item adds, and what it is made from. -/
inductive Adds (context : Context) (item : TimelineItem) (tag : String) (draft : Draft) :
    Stage → Prop where
  | trim {media : MediaItem} {position : Int} (sourced : SourcedBy context item media position)
      (kind : media.kind = .video) (lasting : ¬item.duration ≤ 0) :
      Adds context item tag draft
        (.trim { input := videoStream position, output := label "trim" tag
                 duration := .real item.duration })
  | scale {media : MediaItem} {position : Int} {rect : PixelRect} {source : String}
      (sourced : SourcedBy context item media position)
      (picture : media.kind = .image ∧ source = videoStream position ∨
        media.kind = .video ∧ source = label "trim" tag)
      (placed : Geometry.resolve item.geometry (some media) context.frame = .ok rect) :
      Adds context item tag draft
        (.scale { input := source, output := label "item" tag, width := .int rect.width
                  height := .int rect.height, rotation := .real rect.rotation })
  | overlay {media : MediaItem} {position : Int} {rect : PixelRect}
      (sourced : SourcedBy context item media position)
      (kind : media.kind = .image ∨ media.kind = .video)
      (placed : Geometry.resolve item.geometry (some media) context.frame = .ok rect) :
      Adds context item tag draft
        (.overlay { base := draft.video, overlay := label "item" tag
                    output := label "overlay" (toString draft.pictures)
                    x := .int rect.x, y := .int rect.y, start := .real item.startTime
                    finish := .real (item.startTime + item.duration) })
  | sound {media : MediaItem} {position : Int} {factor : Binary64} {stage : Stage}
      (sourced : SourcedBy context item media position)
      (kind : media.kind = .audio ∨ media.kind = .voiceover)
      (lasting : ¬item.duration ≤ 0) (scaled : (loudness media).div 100 = .ok factor)
      (chained : stage ∈
        chainSteps tag (label "audio" tag) (audioStream position) (soundSteps item factor)) :
      Adds context item tag draft stage
  | drawBox {media : MediaItem} {rect : PixelRect} {caption : Caption} {drawBox : DrawBox}
      {drawText : DrawText} (found : context.library.find? item.mediaId = some media)
      (kind : media.kind = .text) (input : drawBox.input = draft.video)
      (placed : Geometry.resolve item.geometry (some media) context.frame = .ok rect)
      (captioned : Caption.ofMedia? context.metrics context.platform media rect = .ok (some caption))
      (fills : Fills rect caption drawText drawBox)
      (draws : Draws context item media caption drawText) :
      Adds context item tag draft (.drawBox drawBox)
  | drawText {media : MediaItem} {rect : PixelRect} {caption : Caption} {drawText : DrawText}
      (found : context.library.find? item.mediaId = some media) (kind : media.kind = .text)
      (input : drawText.input = draft.video ∨
        drawText.input = label "bgbox" (toString draft.pictures))
      (placed : Geometry.resolve item.geometry (some media) context.frame = .ok rect)
      (captioned : Caption.ofMedia? context.metrics context.platform media rect = .ok (some caption))
      (draws : Draws context item media caption drawText) :
      Adds context item tag draft (.drawText drawText)

namespace Addition

variable {stage : Stage}

/-- Whatever an item adds stands behind the stages that are there. -/
theorem stages_grow (addition : Addition context item tag draft next) :
    draft.stages <+: next.stages := by
  cases addition with
  | skip => exact List.prefix_rfl
  | image => exact ⟨_, (List.append_assoc _ _ _).symm⟩
  | video => exact ⟨_, (List.append_assoc _ _ _).symm⟩
  | sound => exact ⟨_, rfl⟩
  | text => exact ⟨_, rfl⟩
  | boxedText => exact ⟨_, (List.append_assoc _ _ _).symm⟩

/-- Every new stage is one of those listed. -/
theorem adds_of_mem (addition : Addition context item tag draft next)
    (new : stage ∈ next.stages.drop draft.stages.length) : Adds context item tag draft stage := by
  cases addition with
  | skip => simp at new
  | image sourced kind placed =>
      simp only [Draft.overlay, List.append_assoc, List.drop_left, List.nil_append,
        List.mem_cons, List.not_mem_nil, or_false] at new
      rcases new with rfl | rfl
      · exact .scale sourced (.inl ⟨kind, rfl⟩) placed
      · exact .overlay sourced (.inl kind) placed
  | video sourced kind lasting placed cut =>
      simp only [Draft.overlay, List.append_assoc, List.drop_left, List.cons_append,
        List.nil_append, List.mem_cons, List.not_mem_nil, or_false] at new
      rcases new with rfl | rfl | rfl
      · exact cut ▸ .trim sourced kind lasting
      · exact .scale sourced (.inr ⟨kind, rfl⟩) placed
      · exact .overlay sourced (.inr kind) placed
  | sound sourced kind _ lasting scaled =>
      rw [List.drop_left] at new
      exact .sound sourced kind lasting scaled new
  | text found _ kind input _ placed captioned _ draws =>
      rw [List.drop_left, List.mem_singleton] at new
      exact new ▸ .drawText found kind (.inl input) placed captioned draws
  | boxedText found _ kind boxInput boxOutput input _ placed captioned fills draws =>
      simp only [List.append_assoc, List.drop_left, List.cons_append, List.nil_append,
        List.mem_cons, List.not_mem_nil, or_false] at new
      rcases new with rfl | rfl
      · exact .drawBox found kind boxInput placed captioned fills draws
      · exact .drawText found kind (.inr (input.trans boxOutput)) placed captioned draws

end Addition

end Montage.Filter
