import Montage.Number

/-!
# Filter stages

A stage is one step of a filter graph. It reads the streams of its input labels and defines the
stream of its output label. A label that names a stream of an input file has the form
`index:v` or `index:a`; every other label is the output of a stage.

Numbers keep the form in which they were given, because some of them are printed as they are.
-/

namespace Montage.Filter

/-- A solid matte that covers the whole frame for the whole time. -/
structure Background where
  output : String
  width : Number
  height : Number
  duration : Number
  rate : Number := 30
  color : String := "black"
  deriving DecidableEq

/-- Cut a stream to a duration and let its time start at zero again. -/
structure Trim where
  input : String
  output : String
  duration : Number
  audio : Bool := false
  deriving DecidableEq

/-- Fit a picture into a box and keep its aspect ratio, then turn it. -/
structure Scale where
  input : String
  output : String
  width : Number
  height : Number
  rotation : Number := .real (Binary64.zero false)
  deriving DecidableEq

/-- Lay one picture over another between two times. -/
structure Overlay where
  base : String
  overlay : String
  output : String
  x : Number
  y : Number
  start : Number
  finish : Number
  deriving DecidableEq

/-- Draw a filled rectangle between two times. -/
structure DrawBox where
  input : String
  output : String
  x : Number
  y : Number
  width : Number
  height : Number
  color : String
  start : Number
  finish : Number
  deriving DecidableEq

/-- Draw text between two times. The position is an expression over the size of the text. -/
structure DrawText where
  input : String
  output : String
  text : String
  fontSize : Number
  fontColor : String
  fontFile : String
  x : String
  y : String
  start : Number
  finish : Number
  lineSpacing : Number := 0
  shadowColor : String := "black"
  shadowOffset : Number := 2
  deriving DecidableEq

/-- Scale the loudness. -/
structure Volume where
  input : String
  output : String
  factor : Number
  deriving DecidableEq

/-- Delay both channels of a stream by a time in milliseconds. -/
structure Delay where
  input : String
  output : String
  milliseconds : Number
  deriving DecidableEq

/-- Mix several streams into one. -/
structure Mix where
  inputs : List String
  output : String
  duration : String := "longest"
  deriving DecidableEq

/-- One step of a filter graph. -/
inductive Stage where
  | background (stage : Background)
  | trim (stage : Trim)
  | scale (stage : Scale)
  | overlay (stage : Overlay)
  | drawBox (stage : DrawBox)
  | drawText (stage : DrawText)
  | volume (stage : Volume)
  | delay (stage : Delay)
  | mix (stage : Mix)
  deriving DecidableEq

namespace Stage

/-- The labels that a stage reads, in the order in which it names them. -/
def inputs : Stage → List String
  | .background _ => []
  | .trim stage => [stage.input]
  | .scale stage => [stage.input]
  | .overlay stage => [stage.base, stage.overlay]
  | .drawBox stage => [stage.input]
  | .drawText stage => [stage.input]
  | .volume stage => [stage.input]
  | .delay stage => [stage.input]
  | .mix stage => stage.inputs

/-- The label that a stage defines. -/
def output : Stage → String
  | .background stage => stage.output
  | .trim stage => stage.output
  | .scale stage => stage.output
  | .overlay stage => stage.output
  | .drawBox stage => stage.output
  | .drawText stage => stage.output
  | .volume stage => stage.output
  | .delay stage => stage.output
  | .mix stage => stage.output

end Stage

end Montage.Filter
