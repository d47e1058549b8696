import Montage.Filter.Graph
import Montage.Settings

/-!
# Command lines

The external renderer takes the input files in the order of their numbers, the filter script by
path, and the labels of the picture and the sound. A film without sound gets a silent source as one
more input behind all others.

When the first attempt fails, a plain black film of the same size and length takes its place.
-/

namespace Montage

open Montage.Filter (Entry Outputs numeral)

/-- The text of an integer in the name of a file, which has a limited number of digits. -/
def boundedText (value : Int) : Except ArithmeticError String :=
  if digitLimit < digitCount value.natAbs then .error .integerTooLong else .ok (toString value)

/-- The path of a new film. Its name carries the time in milliseconds and the start of a random
number. -/
def outputPath (directory : String) (now : Number) (random : String) :
    Except ArithmeticError String := do
  let milliseconds ←
    match now with
    | .int seconds => pure (seconds * 1000)
    | .real seconds => (seconds * 1000).truncate
  let name := "render_" ++ (← boundedText milliseconds) ++ "_" ++
    String.ofList (random.toList.take 8) ++ ".mp4"
  return joinPath directory name

/-- The options of the picture codec. -/
def codecArguments (settings : Settings) : List String :=
  ["-c:v", settings.renderVideoCodec, "-preset", settings.renderPreset,
    "-crf", toString settings.renderCrf, "-pix_fmt", settings.renderPixFmt]

/-- A source of silence. -/
def silentSource (settings : Settings) : String :=
  "anullsrc=channel_layout=stereo:sample_rate=" ++ toString settings.renderAudioSampleRate

/-- The options that name the input files, in order. -/
def inputArguments (files : List String) : List String :=
  files.flatMap fun path => ["-i", path]

/-- The options that name the sound of the film. -/
def soundArguments (settings : Settings) (inputCount : Nat) : Option String → List String
  | some label => ["-map", "[" ++ label ++ "]", "-c:a", settings.renderAudioCodec]
  | none =>
      ["-map", toString inputCount ++ ":a", "-c:a", settings.renderAudioCodec, "-shortest"]

/-- The arguments that render a film. -/
def renderArguments (settings : Settings) (files : List String) (outputs : Outputs)
    (scriptPath : String) (totalDuration : Number) (output : String) :
    Except ArithmeticError (List String) := do
  let silence :=
    if outputs.audio.isNone then ["-f", "lavfi", "-i", silentSource settings] else []
  let duration ← numeral totalDuration
  return inputArguments files ++ silence ++
    ["-filter_complex_script", scriptPath, "-map", "[" ++ outputs.video ++ "]"] ++
    soundArguments settings files.length outputs.audio ++ codecArguments settings ++
    ["-t", duration, "-y", output]

/-- The arguments that make a black film. -/
def fallbackArguments (settings : Settings) (frame : FrameSize) (totalDuration : Number)
    (output : String) : Except ArithmeticError (List String) := do
  let duration ← numeral totalDuration
  let source := "color=black:size=" ++ toString frame.width ++ "x" ++ toString frame.height ++
    ":duration=" ++ duration ++ ":rate=" ++ toString settings.renderFps
  return ["-f", "lavfi", "-i", source] ++ codecArguments settings ++ ["-y", output]

/-- The words that show that a value was missing when the script was made. -/
def missingWords : List String := ["undefined", "null"]

/-- Refuse a render that cannot succeed: one without inputs, without filters, or with a word in its
script that stands for a missing value. -/
def validateRender (files : List String) (entries : List Entry) : Except Failure Unit := do
  if files.isEmpty then
    throw <| Failure.invalidInput
      "No input files found for rendering. Please add some media to your timeline."
  let statements ← Filter.statements entries
  if statements.isEmpty then
    throw <| Failure.invalidInput ("No media processing filters were created. " ++
      "Check if media items and layers are properly configured.")
  let script := (Filter.statementSeparator.intercalate statements).toList
  if (Text.strip script).isEmpty then
    throw <| Failure.invalidInput
      "No video filters specified. Please add some content to your timeline."
  if missingWords.any fun word => Text.occursIn word.toList script then
    throw <| Failure.invalidInput
      "Invalid filter parameters detected. Please check your timeline items."

/-- A command line as people read it. -/
def commandLine (binary : String) (arguments : List String) : String :=
  " ".intercalate (binary :: arguments)

end Montage
