import Montage.Failure
import Montage.Timeline

/-!
# Placement in pixels

A placement is given in shares of the frame. Shares outside the unit interval are clamped, each
edge is rounded to the nearest pixel, and the rectangle is then pushed into the frame. It is never
narrower or lower than one pixel.
-/

namespace Montage

/-- The size of the film in pixels. -/
structure FrameSize where
  width : Int
  height : Int
  deriving DecidableEq, Repr

/-- A rectangle in pixels, turned by an angle in degrees. -/
structure PixelRect where
  x : Int
  y : Int
  width : Int
  height : Int
  rotation : Binary64
  deriving DecidableEq

/-- The size of a named output format. Unknown names, and none, give the landscape format. -/
def FrameSize.ofStyle (style : Option String) : FrameSize :=
  match style with
  | some "square" => ⟨1080, 1080⟩
  | some "vertical" => ⟨1080, 1920⟩
  | _ => ⟨1920, 1080⟩

namespace Geometry

/-- The placement that fills the frame. -/
def fullFrame : Geometry := ⟨.real 0, .real 0, .real 1, .real 1, some 0⟩

open Binary64 (unlessZero)

/-- The placement of a timeline item: its own, else that of its asset, else the full frame. -/
def effective (own : Option Geometry) (media : Option MediaItem) : Geometry :=
  match own, media with
  | some geometry, _ => geometry
  | none, none => fullFrame
  | none, some media =>
      { x := .real (unlessZero media.x 0)
        y := .real (unlessZero media.y 0)
        width := .real (unlessZero media.width 1)
        height := .real (unlessZero media.height 1)
        rotation := some 0 }

/-- The nearest share of the unit interval. The value that is no number stays as it is. -/
def clampUnit : Number → Number
  | .int share => .int (min (max share 0) 1)
  | .real share => .real (if share < 0 ∨ 1 < share then (share.greatest 0).least 1 else share)

/-- The pixel edge of a share of a length; a half is rounded up. -/
def edge (share : Number) (length : Int) : Except ArithmeticError Int := do
  let extent ← share.mul (.int length)
  let extent ← extent.toBinary64
  (extent + 0.5).floor

/-- The rectangle of a placement in a frame. -/
def toPixels (geometry : Geometry) (frame : FrameSize) : Except ArithmeticError PixelRect := do
  let left ← edge (clampUnit geometry.x) frame.width
  let top ← edge (clampUnit geometry.y) frame.height
  let width ← edge (clampUnit geometry.width) frame.width
  let height ← edge (clampUnit geometry.height) frame.height
  let x := min left (frame.width - 1)
  let y := min top (frame.height - 1)
  return {
    x := x
    y := y
    width := max 1 (min width (frame.width - x))
    height := max 1 (min height (frame.height - y))
    rotation := unlessZero geometry.rotation 0 }

/-- The rectangle of a timeline item in a frame. -/
def resolve (own : Option Geometry) (media : Option MediaItem) (frame : FrameSize) :
    Except ArithmeticError PixelRect :=
  (effective own media).toPixels frame

end Geometry

end Montage
