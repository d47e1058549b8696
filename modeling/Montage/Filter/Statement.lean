import Montage.Filter.Numeral
import Montage.Filter.Stage

/-!
# Filter statements

A statement is the text of one stage: its input labels in brackets, a filter with its options,
and its output label in brackets. The statements of a graph are joined to one script.
-/

namespace Montage.Filter

/-- A label as a statement names it. -/
def bracketed (label : String) : String :=
  "[" ++ label ++ "]"

/-- A number that is printed as it is, without a conversion. -/
def literal (number : Number) : String :=
  String.ofList number.text

/-- A path as the value of an option. A colon would end the value, so it is escaped; a backslash
becomes a slash, which every platform reads. -/
def escapePath (path : String) : String :=
  String.ofList <| path.toList.flatMap fun character =>
    if character = '\\' then ['/']
    else if character = ':' then ['\\', ':']
    else [character]

/-- The condition under which a filter is active, as an option. -/
def enableOption (start finish : Number) : Except ArithmeticError String := do
  return "enable='" ++ (← enableWindow start finish) ++ "'"

/-- The filter of a trim and the reset of the timestamps that follows it. -/
def trimBody (stage : Trim) : Except ArithmeticError String := do
  let duration ← numeral stage.duration
  if stage.audio then return "atrim=duration=" ++ duration ++ ", asetpts=PTS-STARTPTS"
  else return "trim=duration=" ++ duration ++ ", setpts=PTS-STARTPTS"

/-- The filter of a scale. A rotated picture gets an alpha channel and a larger canvas, so its
corners stay transparent. -/
def scaleBody (stage : Scale) : Except ArithmeticError String := do
  let body := "scale=" ++ literal stage.width ++ ":" ++ literal stage.height ++
    ":force_original_aspect_ratio=decrease"
  if stage.rotation.isZero then return body
  else
    let angle ← numeral stage.rotation
    return body ++ ",format=rgba,rotate=" ++ angle ++
      "*PI/180:ow='hypot(iw,ih)':oh='hypot(iw,ih)':fillcolor=none"

/-- The options of a text filter in their order. Zero line spacing is left out. -/
def drawTextOptions (stage : DrawText) : Except ArithmeticError (List String) := do
  let size ← numeral stage.fontSize
  let enabled ← enableOption stage.start stage.finish
  let spacing :=
    if stage.lineSpacing.isZero then [] else ["line_spacing=" ++ literal stage.lineSpacing]
  return [
    "drawtext=text='" ++ stage.text ++ "'",
    "expansion=none",
    "fontsize=" ++ size,
    "fontcolor=" ++ stage.fontColor,
    "fontfile='" ++ escapePath stage.fontFile ++ "'",
    "x=" ++ stage.x,
    "y=" ++ stage.y] ++ spacing ++ [
    "shadowcolor=" ++ stage.shadowColor,
    "shadowx=" ++ literal stage.shadowOffset,
    "shadowy=" ++ literal stage.shadowOffset,
    enabled]

namespace Stage

/-- The filter of a stage with its options, without labels. -/
def body : Stage → Except ArithmeticError String
  | .background stage => do
      let duration ← numeral stage.duration
      return "color=" ++ stage.color ++ ":size=" ++ literal stage.width ++ "x" ++
        literal stage.height ++ ":duration=" ++ duration ++ ":rate=" ++ literal stage.rate
  | .trim stage => trimBody stage
  | .scale stage => scaleBody stage
  | .overlay stage => do
      let enabled ← enableOption stage.start stage.finish
      return "overlay=" ++ literal stage.x ++ ":" ++ literal stage.y ++ ":" ++ enabled
  | .drawBox stage => do
      let enabled ← enableOption stage.start stage.finish
      return "drawbox=x=" ++ literal stage.x ++ ":y=" ++ literal stage.y ++ ":w=" ++
        literal stage.width ++ ":h=" ++ literal stage.height ++ ":color=" ++ stage.color ++
        ":t=fill:" ++ enabled
  | .drawText stage => do
      return ":".intercalate (← drawTextOptions stage)
  | .volume stage => do
      return "volume=" ++ (← numeral stage.factor)
  | .delay stage => do
      let delay ← numeral stage.milliseconds
      return "adelay=" ++ delay ++ "|" ++ delay
  | .mix stage =>
      .ok ("amix=inputs=" ++ toString stage.inputs.length ++ ":duration=" ++ stage.duration)

/-- The statement of a stage. -/
def statement (stage : Stage) : Except ArithmeticError String := do
  let body ← stage.body
  let labels := String.join (stage.inputs.map bracketed)
  let opening := match stage with
    | .background _ => ""
    | _ => labels ++ " "
  return opening ++ body ++ " " ++ bracketed stage.output

end Stage

/-- An entry of a list that should hold stages: a stage, or something of another kind. -/
inductive Entry where
  | stage (stage : Stage)
  | foreign (kind : String)
  deriving DecidableEq

/-- The statement of an entry. -/
def Entry.statement : Entry → Except Failure String
  | .stage known => Failure.ofArithmetic known.statement
  | .foreign kind => .error (.unknownStage kind)

/-- The statements of a list of entries, in order. The first entry without one decides. -/
def statements (entries : List Entry) : Except Failure (List String) :=
  entries.mapM Entry.statement

/-- What stands between the statements of a script. -/
def statementSeparator : String := ";\n"

/-- The script of a list of entries. -/
def script (entries : List Entry) (separator : String) : Except Failure String := do
  return separator.intercalate (← statements entries)

end Montage.Filter
