import Montage.Caption.Metrics
import Montage.Caption.Wrap
import Montage.Number

/-!
# Fitting text into a box

The text is wrapped twice. The first wrap uses a provisional font size, and its number of lines
decides the size that fits the box. The second wrap uses that size, which is then limited by the
lines it really has and by the range that stays readable.
-/

namespace Montage.Caption

/-- A text that was fitted into a box. -/
structure Layout where
  lines : List (List Char)
  fontSize : Binary64
  provisionalFontSize : Binary64
  boxWidth : Int
  boxHeight : Int
  deriving DecidableEq

/-- The least readable font size. -/
def minimumFontSize : Binary64 := 24

/-- The greatest font size. -/
def maximumFontSize : Binary64 := 150

namespace Layout

/-- The number of lines. -/
def lineCount (layout : Layout) : Nat :=
  layout.lines.length

/-- The text with its line breaks. -/
def wrappedText (layout : Layout) : List Char :=
  List.intercalate ['\n'] layout.lines

/-- The height of the box that each line has. -/
def slotHeight (layout : Layout) : Except ArithmeticError Binary64 :=
  Binary64.ofIntQuotient layout.boxHeight (max layout.lineCount 1 : Nat)

/-- The space between lines that spreads them over the whole box. -/
def lineSpacing (layout : Layout) : Except ArithmeticError Int :=
  if layout.lineCount ≤ 1 then .ok 0
  else do
    let slot ← layout.slotHeight
    (slot - layout.fontSize).round

end Layout

/-- The greatest estimated width of some lines. -/
def widestLine (metrics : TextMetrics) (fontSize : Binary64) (lines : List (List Char)) :
    Binary64 :=
  match lines.map (metrics.width · fontSize) with
  | [] => 0
  | first :: rest => rest.foldl Binary64.greatest first

/-- The size at which provisional lines fit the box. Text may grow over its provisional size, a
single line up to twice and several lines up to one and a half times. -/
def optimalFontSize (metrics : TextMetrics) (lines : List (List Char)) (fontSize : Binary64)
    (boxWidth boxHeight : Int) : Except ArithmeticError Binary64 := do
  let single := lines.length = 1
  let estimated := widestLine metrics fontSize lines
  let heightLimit ←
    if single then do
      let height ← Binary64.ofInt boxHeight
      pure (height * 0.8)
    else do
      let slot ← Binary64.ofIntQuotient boxHeight lines.length
      pure (slot * 0.7)
  let growthLimit := if single then fontSize * 2 else fontSize * 1.5
  if estimated ≤ 0 then return heightLimit.least growthLimit
  else
    let width ← Binary64.ofInt boxWidth
    let share ← fontSize.div estimated
    return ((width * 0.9 * share).least heightLimit).least growthLimit

/-- The size before the first wrap: the one that was asked for, or a fifth of the shorter side. -/
def provisionalFontSize (asked : Option Number) (boxWidth boxHeight : Int) :
    Except ArithmeticError Binary64 :=
  match asked.filter Number.isPositive with
  | some size => size.toBinary64
  | none => do
      let side ← Binary64.ofInt (min boxWidth boxHeight)
      return side * 0.2

/-- The greatest size that a box allows for a number of lines. -/
def areaLimit (boxWidth boxHeight : Int) (lineCount : Nat) : Except ArithmeticError Binary64 := do
  let tenth ← Binary64.ofIntQuotient boxWidth 10
  let slot ← Binary64.ofIntQuotient boxHeight (max lineCount 1 : Nat)
  return tenth.least (slot * 0.8)

/-- Fit a text into a box. -/
def fit (metrics : TextMetrics) (text : List Char) (boxWidth boxHeight : Int)
    (asked : Option Number) : Except ArithmeticError Layout := do
  let provisional ← provisionalFontSize asked boxWidth boxHeight
  let width ← Binary64.ofInt boxWidth
  let lineWidth := width * 0.99
  let preliminary := wrap text (← metrics.charactersPerLine lineWidth provisional)
  let optimal ← optimalFontSize metrics preliminary provisional boxWidth boxHeight
  let lines := wrap text (← metrics.charactersPerLine lineWidth optimal)
  let limit ← areaLimit boxWidth boxHeight lines.length
  let size := ((optimal.least limit).greatest minimumFontSize).least maximumFontSize
  return {
    lines := lines
    fontSize := size
    provisionalFontSize := provisional
    boxWidth := boxWidth
    boxHeight := boxHeight }

end Montage.Caption
