import Montage.Number

/-!
# Estimating the width of text

No glyph is measured. The width of a text is taken to be proportional to its number of characters
and to the size of the font; one factor serves for the width of a line, the other for how many
characters a line may hold.
-/

namespace Montage.Caption

/-- The factors of the estimates. -/
structure TextMetrics where
  widthFactor : Binary64 := 0.25
  wrapFactor : Binary64 := 0.6
  deriving DecidableEq

namespace TextMetrics

/-- The estimated width of a text in pixels. -/
def width (metrics : TextMetrics) (text : List Char) (fontSize : Binary64) : Binary64 :=
  Binary64.ofNat text.length * fontSize * metrics.widthFactor

/-- How many characters fit on a line. A font without a positive size fits none. -/
def charactersPerLine (metrics : TextMetrics) (lineWidth fontSize : Binary64) :
    Except ArithmeticError Int :=
  if fontSize ≤ 0 then .ok 0
  else do
    let quotient ← lineWidth.div (fontSize * metrics.wrapFactor)
    quotient.floor

end TextMetrics

end Montage.Caption
