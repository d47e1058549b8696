import Montage.Caption.Color
import Montage.Caption.Layout
import Montage.Font
import Montage.Placement

/-!
# Captions

A caption is everything that the text filter needs to draw one text in its box: the wrapped and
escaped text, its size and spacing, the colours, the font file and the expressions that centre it.
Characters that would end an option are removed from the text before it is fitted.
-/

namespace Montage

/-- A text that is ready to be drawn in a box. -/
structure Caption where
  layout : Caption.Layout
  text : String
  fontColor : String
  fontFile : String
  xExpression : String
  yExpression : String
  backgroundColor : Option String
  box : PixelRect
  deriving DecidableEq

namespace Caption

/-- The characters that have a meaning in the text of a filter. -/
def isReserved (character : Char) : Bool :=
  character == '\'' || character == '"' || character == ',' || character == ':' ||
    character == ';'

/-- One line feed for each of the three kinds of line break. -/
def unifyBreaks : List Char → List Char
  | '\r' :: '\n' :: rest => '\n' :: unifyBreaks rest
  | '\r' :: rest => '\n' :: unifyBreaks rest
  | character :: rest => character :: unifyBreaks rest
  | [] => []

/-- The text without reserved characters, with unified line breaks and no blanks around it. -/
def sanitize (text : List Char) : List Char :=
  Text.strip (unifyBreaks (text.filter fun character => !isReserved character))

/-- The text inside quotes: a backslash is written twice. -/
def escape (text : List Char) : List Char :=
  text.flatMap fun character => if character = '\\' then ['\\', '\\'] else [character]

/-- The expression that centres an extent in an interval. -/
def centred (start length : Int) (extent : String) : String :=
  toString start ++ "+(" ++ toString length ++ "-" ++ extent ++ ")/2"

/-- The caption of a text asset in a box. An asset without text has none. -/
def ofMedia? (metrics : TextMetrics) (platform : Platform) (media : MediaItem) (box : PixelRect) :
    Except ArithmeticError (Option Caption) := do
  let text := sanitize (media.text.getD "").toList
  if text.isEmpty then return none
  else
    let layout ← fit metrics text box.width box.height (media.fontSize.map .real)
    let fontColor ← filterColor ((media.fontColor.filter (· != "")).getD standardTextColor)
    let backgroundColor ← boxColor media.backgroundTransparent media.backgroundColor
    return some {
      layout := layout
      text := String.ofList (escape layout.wrappedText)
      fontColor := fontColor
      fontFile := Montage.fontFile media.fontFamily media.fontBold media.fontItalic platform
      xExpression := centred box.x box.width "text_w"
      yExpression := centred box.y box.height "text_h"
      backgroundColor := backgroundColor
      box := box }

end Caption

end Montage
