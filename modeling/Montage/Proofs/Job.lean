import Montage.Job
import Montage.Proofs.Command
import Montage.Proofs.Filter.Stream
import Montage.Proofs.Inputs

/-!
# Inputs of jobs

The numbering of the inputs, the graph and the command line are worked out one after another.
They agree on the numbers: a stage reads the file of the asset that it was compiled for, the
command line names the files in the same order, and silence takes the first number that is free.
-/

namespace Montage.RenderJob

open Montage.Filter

/-- A number is that of the file of an asset. The asset is the one that an item names, and it is
of one of the kinds. -/
def FileAt (workplace : Workplace) (payload : RenderPayload) (job : RenderJob)
    (item : TimelineItem) (kinds : List MediaKind) (position : Int) : Prop :=
  ∃ media : MediaItem, ∃ index : Nat,
    (Library.ofList payload.mediaLibrary).find? item.mediaId = some media ∧
      media.kind ∈ kinds ∧ position = index ∧
      job.inputs.files[index]? = some (mediaPath media.filePath workplace.settings.mediaRoot)

/-- A stage of a job is compiled for an item. -/
abbrev Compiles (workplace : Workplace) (payload : RenderPayload) (job : RenderJob) :
    TimelineItem → Stage → Prop :=
  CompiledFor (context workplace payload job.inputs) (taggedItems payload.layers)

/-- The graph and the command line of a job mean the same files by the same numbers. -/
structure InputsAgree (workplace : Workplace) (payload : RenderPayload) (job : RenderJob) :
    Prop where
  /-- A stage reads only streams of inputs that the job has. -/
  within : ∀ stage ∈ job.graph.stages, ∀ position : Int,
    videoStream position ∈ stage.inputs ∨ audioStream position ∈ stage.inputs →
      0 ≤ position ∧ position < job.inputs.files.length
  /-- A stage that reads a stream of an input is compiled for an item. -/
  attributed : ∀ stage ∈ job.graph.stages, ∀ name ∈ stage.inputs, IsStream name →
    ∃ item, job.Compiles workplace payload item stage
  /-- The picture that a stage reads comes from the file of the asset of its item. -/
  picture : ∀ item stage, job.Compiles workplace payload item stage →
    ∀ position : Int, videoStream position ∈ stage.inputs →
      job.FileAt workplace payload item [.image, .video] position
  /-- The sound that a stage reads comes from the file of the asset of its item. -/
  sound : ∀ item stage, job.Compiles workplace payload item stage →
    ∀ position : Int, audioStream position ∈ stage.inputs →
      job.FileAt workplace payload item [.audio, .voiceover] position
  /-- The command line names the files in order, and silence behind them in a film without sound. -/
  operands : ∀ scriptPath, ∃ arguments,
    job.renderArguments workplace.settings scriptPath = .ok arguments ∧
      optionValues "-i" arguments = job.inputs.files ++
        if job.graph.outputs.audio.isNone then [silentSource workplace.settings] else []
  /-- A film without sound takes its sound from the silence. -/
  silence : job.graph.outputs.audio = none → ∀ scriptPath arguments,
    job.renderArguments workplace.settings scriptPath = .ok arguments →
      optionValues "-map" arguments =
        ["[" ++ job.graph.outputs.video ++ "]", audioStream job.inputs.files.length]
  /-- No stage reads the input behind the files. -/
  unread : ∀ stage ∈ job.graph.stages, ∀ name ∈ stage.inputs,
    name ≠ videoStream job.inputs.files.length ∧ name ≠ audioStream job.inputs.files.length

variable {workplace : Workplace} {payload : RenderPayload} {film : FilmPath} {job : RenderJob}
variable {item : TimelineItem} {stage : Stage} {kinds : List MediaKind} {position : Int}

theorem FileAt.within (file : job.FileAt workplace payload item kinds position) :
    0 ≤ position ∧ position < job.inputs.files.length := by
  obtain ⟨media, index, -, -, rfl, listed⟩ := file
  have bound := (List.getElem?_eq_some_iff.mp listed).1
  omega

/-- What a job is worked out from. -/
theorem parts_of_prepare (prepared : prepare workplace payload film = .ok job) :
    job.inputs = Inputs.collect payload.layers payload.mediaLibrary workplace.settings.mediaRoot
        workplace.isFile ∧
      Graph.ofLayers (context workplace payload job.inputs) payload.layers = .ok job.graph := by
  obtain ⟨inputs, numbered, prepared⟩ := bind_eq_ok.mp prepared
  obtain ⟨graph, compiled, prepared⟩ := bind_eq_ok.mp prepared
  obtain ⟨output, -, prepared⟩ := bind_eq_ok.mp prepared
  obtain ⟨fallback, -, equal⟩ := bind_eq_ok.mp prepared
  cases equal
  refine ⟨?_, Failure.ofArithmetic_eq_ok.mp compiled⟩
  simp only [Inputs.ofTimeline] at numbered
  split at numbered
  · contradiction
  · cases numbered
    rfl

/-- The library of a job holds the assets of its payload. -/
theorem library_of_prepare (prepared : prepare workplace payload film = .ok job) :
    job.inputs.library = Library.ofList payload.mediaLibrary :=
  (parts_of_prepare prepared).1 ▸ (Inputs.numbered_collect _ _ _ _).2

/-- An asset with a number is read from the file at that number. -/
theorem fileAt_of_sourcedBy {media : MediaItem}
    (collected : job.inputs = Inputs.collect payload.layers payload.mediaLibrary
      workplace.settings.mediaRoot workplace.isFile)
    (sourced : SourcedBy (context workplace payload job.inputs) item media position)
    (kind : media.kind ∈ kinds) : job.FileAt workplace payload item kinds position := by
  obtain ⟨numbered, library⟩ := Inputs.numbered_collect payload.layers payload.mediaLibrary
    workplace.settings.mediaRoot workplace.isFile
  rw [← collected] at numbered library
  have found : (Library.ofList payload.mediaLibrary).find? item.mediaId = some media :=
    library ▸ sourced.found
  obtain ⟨asset, index, known, -, place, listed⟩ := numbered media.id position sourced.source
  rw [(Library.id_of_find? found).2, library, found] at known
  cases known
  exact ⟨media, index, found, kind, place, listed⟩

theorem fileAt_of_videoStream
    (collected : job.inputs = Inputs.collect payload.layers payload.mediaLibrary
      workplace.settings.mediaRoot workplace.isFile)
    (compiles : job.Compiles workplace payload item stage)
    (read : videoStream position ∈ stage.inputs) :
    job.FileAt workplace payload item [.image, .video] position := by
  have taken := compiles.takes read (isStream_videoStream position)
  generalize same : videoStream position = name at taken
  cases taken with
  | picture sourced kind =>
      cases videoStream_injective same
      exact fileAt_of_sourcedBy collected sourced (by simpa using kind)
  | sound => exact absurd same (videoStream_ne_audioStream _ _)

theorem fileAt_of_audioStream
    (collected : job.inputs = Inputs.collect payload.layers payload.mediaLibrary
      workplace.settings.mediaRoot workplace.isFile)
    (compiles : job.Compiles workplace payload item stage)
    (read : audioStream position ∈ stage.inputs) :
    job.FileAt workplace payload item [.audio, .voiceover] position := by
  have taken := compiles.takes read (isStream_audioStream position)
  generalize same : audioStream position = name at taken
  cases taken with
  | picture => exact absurd same.symm (videoStream_ne_audioStream _ _)
  | sound sourced kind =>
      cases audioStream_injective same
      exact fileAt_of_sourcedBy collected sourced (by simpa using kind)

/-- The job of any payload numbers its inputs in one way. -/
theorem inputsAgree_of_prepare (prepared : prepare workplace payload film = .ok job) :
    job.InputsAgree workplace payload := by
  obtain ⟨collected, compiled⟩ := parts_of_prepare prepared
  have attributed : ∀ stage ∈ job.graph.stages, ∀ name ∈ stage.inputs, IsStream name →
      ∃ item, job.Compiles workplace payload item stage :=
    fun stage member name read => compiledFor_of_read compiled member read
  have within : ∀ stage ∈ job.graph.stages, ∀ position : Int,
      videoStream position ∈ stage.inputs ∨ audioStream position ∈ stage.inputs →
        0 ≤ position ∧ position < job.inputs.files.length := by
    intro stage member position read
    rcases read with read | read
    · obtain ⟨item, compiles⟩ := attributed stage member _ read (isStream_videoStream position)
      exact (fileAt_of_videoStream collected compiles read).within
    · obtain ⟨item, compiles⟩ := attributed stage member _ read (isStream_audioStream position)
      exact (fileAt_of_audioStream collected compiles read).within
  refine ⟨within, attributed, ?_, ?_, ?_, ?_, ?_⟩
  · exact fun item stage compiles position => fileAt_of_videoStream collected compiles
  · exact fun item stage compiles position => fileAt_of_audioStream collected compiles
  · intro scriptPath
    obtain ⟨arguments, rendered⟩ := renderArguments_real workplace.settings job.inputs.files
      job.graph.outputs scriptPath job.output job.totalDuration
    exact ⟨arguments, Failure.ofArithmetic_eq_ok.mpr rendered, inputs_of_renderArguments rendered⟩
  · intro silent scriptPath arguments rendered
    have maps := maps_of_renderArguments (Failure.ofArithmetic_eq_ok.mp rendered)
    rw [silent] at maps
    exact maps
  · intro stage member name read
    constructor
    · rintro rfl
      exact absurd (within stage member _ (.inl read)).2 (lt_irrefl _)
    · rintro rfl
      exact absurd (within stage member _ (.inr read)).2 (lt_irrefl _)

/-! ## A film without sound -/

/-- A picture, a film whose asset is there twice, a text and a hidden sound. -/
def samplePayload : RenderPayload where
  layers :=
    [sampleLayer true [sampleItem "film" 0, sampleItem "picture" 1, sampleItem "film" 5],
      sampleLayer false [sampleItem "music" 0],
      sampleLayer true [sampleItem "title" 2, sampleItem "lost" 0]]
  mediaLibrary :=
    sampleAssets ++ [{ sampleAsset "film" .video with filePath := "/second/film" }]
  timeline := { totalDuration := some 12 }
  editorSettings := { videoStyle := none }

/-- A place where every file exists. -/
def sampleWorkplace : Workplace where
  isFile _ := true

theorem inputsAgree_samplePayload :
    ∃ job, prepare sampleWorkplace samplePayload "film.mp4" = .ok job ∧
      job.inputs.files.length = 2 ∧ job.graph.outputs.audio = none ∧
      (readLabels job.graph.stages).count (videoStream 0) = 2 ∧
      job.InputsAgree sampleWorkplace samplePayload := by
  have prepared : ∃ job ∈ (prepare sampleWorkplace samplePayload "film.mp4").toOption,
      job.inputs.files.length = 2 ∧ job.graph.outputs.audio = none ∧
      (readLabels job.graph.stages).count (videoStream 0) = 2 := by
    decide +kernel
  obtain ⟨job, member, length, silent, read⟩ := prepared
  have prepared := mem_toOption.mp member
  exact ⟨job, prepared, length, silent, read, inputsAgree_of_prepare prepared⟩

end Montage.RenderJob
