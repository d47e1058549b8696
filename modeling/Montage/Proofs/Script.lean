import Montage.Proofs.Filter.Seal
import Montage.Proofs.Job

/-!
# Scripts of jobs

The script of a job reads as the statements of its stages, in order and with their labels, whatever
the payload holds, as long as the colours of its texts are inert. Without that a colour can end its
statement and bring in a filter of its own.
-/

namespace Montage.RenderJob

open Montage.Filter

variable {workplace : Workplace} {payload : RenderPayload} {film : FilmPath} {job : RenderJob}

/-- The script of a job exists and reads as the statements of the stages. -/
theorem script_of_prepare (prepared : prepare workplace payload film = .ok job)
    (colors : ∀ media ∈ payload.mediaLibrary, media.kind = .text → InertColors media) :
    ∃ script, job.graph.script = .ok script ∧
      List.Forall₂ ReadsAs job.graph.stages (readStatements script) := by
  obtain ⟨collected, compiled⟩ := parts_of_prepare prepared
  refine Graph.exists_script compiled ⟨hasNumeral_real _, _, rfl⟩ ?_
  intro id media found kind
  have library : job.inputs.library = Library.ofList payload.mediaLibrary :=
    collected ▸ (Inputs.numbered_collect _ _ _ _).2
  change job.inputs.library.find? id = some media at found
  rw [library] at found
  exact colors media (Library.id_of_find? found).1 kind

/-- A payload with a text of any content and colours. -/
def titlePayload (text fontColor backgroundColor : String) : RenderPayload where
  layers := [sampleLayer true [sampleItem "title" 0]]
  mediaLibrary :=
    [{ sampleAsset "title" .text with
        text := some text, fontColor := some fontColor, backgroundColor := some backgroundColor
        fontFamily := some "';[bg]" }]
  timeline := { totalDuration := some 12 }
  editorSettings := { videoStyle := none }

theorem script_titlePayload :
    ∃ job script,
      prepare sampleWorkplace (titlePayload "[bg]'; negate\\" "rgba(1, 2, 3, 0.5);[bg]" "red;[bg]")
          "film.mp4" = .ok job ∧
        job.graph.script = .ok script ∧ job.graph.stages.length = 3 ∧
        List.Forall₂ ReadsAs job.graph.stages (readStatements script) := by
  have prepared : ∃ job ∈ (prepare sampleWorkplace
      (titlePayload "[bg]'; negate\\" "rgba(1, 2, 3, 0.5);[bg]" "red;[bg]") "film.mp4").toOption,
      job.graph.stages.length = 3 := by
    decide +kernel
  obtain ⟨job, member, length⟩ := prepared
  have prepared := mem_toOption.mp member
  obtain ⟨script, written, reads⟩ := script_of_prepare prepared (by
    rintro media listed -
    rw [List.mem_singleton.mp listed]
    constructor
    · rintro color ⟨⟩ foreign
      exact absurd foreign (by decide +kernel)
    · rintro color ⟨⟩ hexadecimal
      exact absurd hexadecimal (by decide +kernel))
  exact ⟨job, script, prepared, written, length, reads⟩

/-! ## A colour with a filter in it -/

/-- The matte of a film of twelve seconds. -/
def sampleMatte : Background where
  output := "bg"
  width := 1920
  height := 1080
  duration := .real 12

/-- A title whose colour ends its statement. -/
def splitTitle : DrawText where
  input := "bg"
  output := "text_0"
  text := "Title"
  fontSize := .real 150
  fontColor := "white;[bg]negate"
  fontFile := "/usr/share/fonts/truetype/liberation/LiberationSans-Regular.ttf"
  x := "0+(1920-text_w)/2"
  y := "0+(1080-text_h)/2"
  start := 0
  finish := .real 4

/-- The options of that title. -/
def splitOptions : List String :=
  ["drawtext=text='Title'", "expansion=none", "fontsize=150", "fontcolor=white;[bg]negate",
    "fontfile='/usr/share/fonts/truetype/liberation/LiberationSans-Regular.ttf'",
    "x=0+(1920-text_w)/2", "y=0+(1080-text_h)/2", "shadowcolor=black", "shadowx=2", "shadowy=2",
    "enable='between(t,0,4)'"]

/-- The script of two stages reads as three statements. -/
theorem split_by_fontColor :
    ∃ job script,
      prepare sampleWorkplace (titlePayload "Title" "white;[bg]negate" "") "film.mp4" = .ok job ∧
        job.graph.script = .ok script ∧ job.graph.stages.length = 2 ∧
        (readStatements script).length = 3 := by
  have prepared : ∃ job ∈ (prepare sampleWorkplace
      (titlePayload "Title" "white;[bg]negate" "") "film.mp4").toOption,
      job.graph.stages = [.background sampleMatte, .drawText splitTitle] := by
    decide +kernel
  have matte : (Stage.background sampleMatte).statement =
      .ok "color=black:size=1920x1080:duration=12:rate=30 [bg]" := by decide +kernel
  have options : drawTextOptions splitTitle = .ok splitOptions := by decide +kernel
  have title : (Stage.drawText splitTitle).statement =
      .ok ("[bg]" ++ " " ++ ":".intercalate splitOptions ++ " " ++ "[text_0]") := by
    rw [Stage.statement, Stage.body, options]
    rfl
  obtain ⟨job, member, stages⟩ := prepared
  have texts : statements job.graph.entries = .ok
      ["color=black:size=1920x1080:duration=12:rate=30 [bg]",
        "[bg]" ++ " " ++ ":".intercalate splitOptions ++ " " ++ "[text_0]"] := by
    rw [Graph.entries, stages, statements]
    simp only [List.map_cons, List.map_nil, List.mapM_cons, List.mapM_nil, Entry.statement, matte,
      title]
    rfl
  refine ⟨job, _, mem_toOption.mp member, bind_eq_ok.mpr ⟨_, texts, rfl⟩, by rw [stages]; rfl, ?_⟩
  -- The characters of the whole script take much longer to evaluate than those of its parts.
  rw [readStatements]
  simp only [String.toList_intercalate, List.map_cons, List.map_nil, String.toList_append]
  decide +kernel

end Montage.RenderJob
