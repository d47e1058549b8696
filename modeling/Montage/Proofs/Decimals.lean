import Montage.Proofs.Filter.Quantity
import Montage.Proofs.Job

/-!
# Numbers that reach the renderer

A job writes numbers in its script and in its two command lines. All of them are decimals exactly if
the length of the film and the quantities of the items are finite, and then the film has a length
above zero. That holds for every payload of moderate numbers. It does not hold for every payload:
a length that is no number is neither zero nor less, so nothing takes its place.
-/

namespace Montage

/-- A film of finite length is longer than zero, because the standard length is. -/
theorem RenderPayload.filmDuration_pos {payload : RenderPayload} {settings : Settings}
    (standard : 0 < settings.renderDefaultDuration)
    (finite : (payload.filmDuration settings).IsFinite) : 0 < payload.filmDuration settings := by
  cases given : payload.timeline.totalDuration with
  | none => simpa [filmDuration, given] using standard
  | some duration =>
      by_cases empty : duration ≤ 0
      · simpa [filmDuration, given, empty] using standard
      · have number : duration ≠ .nan := by
          rintro rfl
          simp only [filmDuration, given, if_neg empty] at finite
          contradiction
        simpa [filmDuration, given, empty] using Binary64.lt_of_not_le number (by decide) empty

/-- The items that a film may show or let hear. -/
def RenderPayload.visibleItems (payload : RenderPayload) : List TimelineItem :=
  (payload.layers.filter (·.visible)).flatMap (·.items)

namespace RenderJob

open Montage.Filter

variable {workplace : Workplace} {payload : RenderPayload} {film : FilmPath} {job : RenderJob}

/-- A job whose numbers are all written as decimals. -/
structure WritesDecimals (settings : Settings) (job : RenderJob) : Prop where
  total : job.totalDuration.IsFinite ∧ 0 < job.totalDuration
  /-- The filters of the script are made of words and decimals. -/
  script : ∀ stage ∈ job.graph.stages, stage.WritesDecimals
  /-- The film is cut to a decimal. -/
  rendered : ∀ scriptPath, ∃ arguments duration,
    job.renderArguments settings scriptPath = .ok arguments ∧
      numeral (.real job.totalDuration) = .ok duration ∧
      optionValues "-t" arguments = [duration] ∧ IsDecimal duration.toList
  /-- The black film that may take the place of the film is as long as a decimal says. -/
  fallback : ∃ duration,
    numeral (.real job.totalDuration) = .ok duration ∧
      optionValues "-i" job.fallbackArguments = [blackSource settings job.frame duration] ∧
      IsDecimal duration.toList

/-- The length of a job is that of its film, and its fallback is as long. -/
theorem duration_of_prepare (prepared : prepare workplace payload film = .ok job) :
    job.totalDuration = payload.filmDuration workplace.settings ∧
      Montage.fallbackArguments workplace.settings job.frame (.real job.totalDuration) job.output =
        .ok job.fallbackArguments := by
  obtain ⟨inputs, -, prepared⟩ := bind_eq_ok.mp prepared
  obtain ⟨graph, -, prepared⟩ := bind_eq_ok.mp prepared
  obtain ⟨output, -, prepared⟩ := bind_eq_ok.mp prepared
  obtain ⟨fallback, written, equal⟩ := bind_eq_ok.mp prepared
  cases equal
  exact ⟨rfl, Failure.ofArithmetic_eq_ok.mp written⟩

/-- A job of finite numbers writes decimals only. -/
theorem writesDecimals_of_isFinite (prepared : prepare workplace payload film = .ok job)
    (standard : 0 < workplace.settings.renderDefaultDuration)
    (length : (payload.filmDuration workplace.settings).IsFinite)
    (finite : ∀ item ∈ payload.visibleItems,
      ∀ quantity ∈ quantities (context workplace payload job.inputs) item, quantity.IsFinite) :
    job.WritesDecimals workplace.settings := by
  obtain ⟨-, compiled⟩ := parts_of_prepare prepared
  obtain ⟨total, black⟩ := duration_of_prepare prepared
  have positive := payload.filmDuration_pos standard length
  have script := (Graph.writesDecimals_iff compiled).mpr ⟨length, finite⟩
  rw [← total] at length positive
  obtain ⟨duration, written, decimal⟩ := hasDecimal_of_isFinite length
  constructor
  · exact ⟨length, positive⟩
  · exact script
  · intro scriptPath
    obtain ⟨arguments, rendered⟩ := renderArguments_real workplace.settings job.inputs.files
      job.graph.outputs scriptPath job.output job.totalDuration
    obtain ⟨duration', written', option⟩ := duration_of_renderArguments rendered
    cases written.symm.trans written'
    exact ⟨arguments, duration, Failure.ofArithmetic_eq_ok.mpr rendered, written, option, decimal⟩
  · obtain ⟨duration', written', source⟩ := source_of_fallbackArguments black
    cases written.symm.trans written'
    exact ⟨duration, written, source, decimal⟩

/-- A job writes decimals only exactly if the length of its film and the quantities of its items
are finite. -/
theorem writesDecimals_iff_of_prepare (prepared : prepare workplace payload film = .ok job)
    (standard : 0 < workplace.settings.renderDefaultDuration) :
    job.WritesDecimals workplace.settings ↔
      (payload.filmDuration workplace.settings).IsFinite ∧
        ∀ item ∈ payload.visibleItems,
          ∀ quantity ∈ quantities (context workplace payload job.inputs) item,
            quantity.IsFinite := by
  constructor
  · intro writes
    obtain ⟨-, compiled⟩ := parts_of_prepare prepared
    exact (Graph.writesDecimals_iff compiled).mp writes.script
  · rintro ⟨length, finite⟩
    exact writesDecimals_of_isFinite prepared standard length finite

theorem writesDecimals_samplePayload :
    ∃ job, prepare sampleWorkplace samplePayload "film.mp4" = .ok job ∧
      0 < sampleWorkplace.settings.renderDefaultDuration ∧
      job.WritesDecimals sampleWorkplace.settings := by
  have prepared : ∃ job ∈ (prepare sampleWorkplace samplePayload "film.mp4").toOption,
      ∀ item ∈ samplePayload.visibleItems,
        ∀ quantity ∈ quantities (context sampleWorkplace samplePayload job.inputs) item,
          quantity.IsFinite := by
    decide +kernel
  have standard : 0 < sampleWorkplace.settings.renderDefaultDuration := by decide +kernel
  obtain ⟨job, member, finite⟩ := prepared
  have prepared := mem_toOption.mp member
  exact ⟨job, prepared, standard,
    (writesDecimals_iff_of_prepare prepared standard).mpr ⟨by decide +kernel, finite⟩⟩

/-! ## Moderate payloads -/

theorem isFinite_filmDuration {settings : Settings}
    (given : ∀ duration ∈ payload.timeline.totalDuration, duration.IsFinite)
    (standard : settings.renderDefaultDuration.IsFinite) :
    (payload.filmDuration settings).IsFinite := by
  rw [RenderPayload.filmDuration]
  split
  next => exact standard
  next duration named =>
    split
    · exact standard
    · exact given duration named

/-- The jobs of a payload write decimals only if the numbers of its items and assets are moderate
and its length, if it has one, is finite. -/
theorem writesDecimals_of_moderate (prepared : prepare workplace payload film = .ok job)
    (length : ∀ duration ∈ payload.timeline.totalDuration, duration.IsFinite)
    (items : ∀ item ∈ payload.visibleItems, ModerateItem item)
    (assets : ∀ media ∈ payload.mediaLibrary, ModerateAsset media)
    (standard : 0 < workplace.settings.renderDefaultDuration)
    (finite : workplace.settings.renderDefaultDuration.IsFinite)
    (lasting : workplace.settings.renderDefaultTextDuration.IsModerate) :
    job.WritesDecimals workplace.settings := by
  have library : job.inputs.library = Library.ofList payload.mediaLibrary :=
    (parts_of_prepare prepared).1 ▸ (Inputs.numbered_collect _ _ _ _).2
  refine writesDecimals_of_isFinite prepared standard (isFinite_filmDuration length finite) ?_
  intro item listed
  refine isFinite_quantities (items item listed) ?_ rfl lasting
  intro media found
  change job.inputs.library.find? item.mediaId = some media at found
  rw [library] at found
  exact assets media (Library.id_of_find? found).1

/-! ## A length that is no number -/

/-- A payload with one picture, whose length is given. -/
def picturePayload (length : Binary64) : RenderPayload where
  layers := [sampleLayer true [sampleItem "picture" 0]]
  mediaLibrary := sampleAssets
  timeline := { totalDuration := some length }
  editorSettings := { videoStyle := none }

/-- The length is taken over, and no numeral of it is a decimal. -/
theorem unmeasured_picture :
    ∃ job, prepare sampleWorkplace (picturePayload .nan) "film.mp4" = .ok job ∧
      job.totalDuration = .nan ∧
      job.graph.stages.head?.map Stage.body =
        some (.ok "color=black:size=1920x1080:duration=nan:rate=30") ∧
      ¬job.WritesDecimals sampleWorkplace.settings := by
  have prepared : ∃ job ∈ (prepare sampleWorkplace (picturePayload .nan) "film.mp4").toOption,
      job.totalDuration = .nan ∧
      job.graph.stages.head?.map Stage.body =
        some (.ok "color=black:size=1920x1080:duration=nan:rate=30") := by
    decide +kernel
  obtain ⟨job, member, length, body⟩ := prepared
  refine ⟨job, mem_toOption.mp member, length, body, ?_⟩
  intro writes
  have finite := writes.total.1
  rw [length] at finite
  contradiction

end RenderJob

end Montage
