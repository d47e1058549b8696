import Montage.Command

/-!
# Render jobs

A job is everything that one render needs, worked out from a payload before a script is written or a
process started.
-/

namespace Montage

/-- What the outside provides for working out a job: the settings, the files that exist, the font
platform, the factors of text metrics and the directory of films. -/
structure Workplace where
  settings : Settings := {}
  isFile : String → Bool := fun _ => false
  platform : Platform := .linux
  metrics : Caption.TextMetrics := {}
  /-- Why the directory of films cannot be made, if it cannot. -/
  filmFault : Option String := none

/-- How a film gets its path. -/
inductive FilmPath where
  /-- The path is given. -/
  | given (path : String)
  /-- The name tells the time and a random number. -/
  | stamped (now : Number) (random : String)
  deriving DecidableEq

instance : Coe String FilmPath := ⟨.given⟩

/-- Make the directory of films and the path of a new film in it. -/
def FilmPath.make (film : FilmPath) (workplace : Workplace) : Except Failure String :=
  match workplace.filmFault, film with
  | some reason, _ => .error (.external reason)
  | none, .given path => .ok path
  | none, .stamped now random =>
      Failure.ofArithmetic (outputPath workplace.settings.renderOutputDir now random)

/-- Everything that one render needs. -/
structure RenderJob where
  inputs : Inputs
  graph : Filter.Graph
  frame : FrameSize
  totalDuration : Binary64
  output : String
  fallbackArguments : List String

/-- The length of a film: what its timeline says where that is not zero or less, or else the
standard length. -/
def RenderPayload.filmDuration (payload : RenderPayload) (settings : Settings) : Binary64 :=
  match payload.timeline.totalDuration with
  | none => settings.renderDefaultDuration
  | some duration => if duration ≤ 0 then settings.renderDefaultDuration else duration

namespace RenderJob

/-- What the graph of a payload is compiled from. -/
def context (workplace : Workplace) (payload : RenderPayload) (inputs : Inputs) :
    Filter.Context where
  library := inputs.library
  sources := inputs.sources
  frame := FrameSize.ofStyle payload.editorSettings.videoStyle
  totalDuration := .real (payload.filmDuration workplace.settings)
  metrics := workplace.metrics
  textDuration := .real workplace.settings.renderDefaultTextDuration
  rate := .int workplace.settings.renderFps
  platform := workplace.platform

/-- Work out the job of a payload. The directory of films is made on the way. -/
def prepare (workplace : Workplace) (payload : RenderPayload) (film : FilmPath) :
    Except Failure RenderJob := do
  let settings := workplace.settings
  let inputs ←
    Inputs.ofTimeline payload.layers payload.mediaLibrary settings.mediaRoot workplace.isFile
  let context := context workplace payload inputs
  let graph ← Failure.ofArithmetic (Filter.Graph.ofLayers context payload.layers)
  let output ← film.make workplace
  let fallback ←
    Failure.ofArithmetic
      (Montage.fallbackArguments settings context.frame context.totalDuration output)
  return {
    inputs := inputs
    graph := graph
    frame := context.frame
    totalDuration := payload.filmDuration settings
    output := output
    fallbackArguments := fallback }

/-- The arguments that render the film with the script at a path. -/
def renderArguments (settings : Settings) (job : RenderJob) (scriptPath : String) :
    Except Failure (List String) :=
  Failure.ofArithmetic <|
    Montage.renderArguments settings job.inputs.files job.graph.outputs scriptPath
      (.real job.totalDuration) job.output

end RenderJob

end Montage
