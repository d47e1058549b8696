import Montage.Placement
import Montage.Proofs.Binary64.Arithmetic

/-!
# Placements of assets

An asset may say where it lies, and a timeline item without a placement lies there. The shares of
the asset are then used as if the item had them itself, each on its own, with one exception: a width
or height of zero counts as left out and gives the whole frame, while an item that says zero gets
the least extent of one pixel.
-/

namespace Montage

/-- The placement that the shares of an asset make up for a timeline item. Those that are left out
are the ones of the full frame. -/
def MediaItem.placement (media : MediaItem) : Geometry where
  x := .real (media.x.getD 0)
  y := .real (media.y.getD 0)
  width := .real (media.width.getD 1)
  height := .real (media.height.getD 1)

/-- An asset without the extents that are zero. -/
def MediaItem.dropEmptyExtents (media : MediaItem) : MediaItem :=
  { media with
    width := media.width.filter (!·.isZero)
    height := media.height.filter (!·.isZero) }

namespace Binary64

variable {number : Binary64}

/-- There are two zeros. -/
theorem eq_zero_of_isZero (isZero : number.isZero = true) : number = zero number.isNegative := by
  cases number with
  | finite negative significand exponent canonical =>
      obtain rfl : significand = 0 := beq_iff_eq.mp isZero
      obtain ⟨-, -, -, least | full⟩ := canonical
      · subst least
        rfl
      · exact absurd full (by decide)
  | infinite negative => contradiction
  | nan => contradiction

theorem finite_of_ofInt {whole : Int} (converted : ofInt whole = .ok number) :
    ∃ value, number.toRat? = some value := by
  unfold ofInt at converted
  split at converted
  next => contradiction
  next number' bounded =>
    cases converted
    cases equal : ofRat (whole : ℚ) false with
    | finite => exact ⟨_, rfl⟩
    | infinite negative => exact absurd equal (bounded negative)
    | nan => exact absurd equal (ofRat_ne_nan _ _)

theorem zero_mul (negative : Bool) {value : ℚ} (finite : number.toRat? = some value) :
    zero negative * number = zero (negative != number.isNegative) := by
  have nothing : ∀ sign, (zero sign).toRat? = some 0 := by decide +kernel
  rw [mul_of_toRat? (nothing negative) finite, Rat.zero_mul]
  exact if_pos rfl

end Binary64

namespace Geometry

variable {share : Binary64} {length : Int}

/-- The edge of a share of zero is the first pixel, whatever the sign of the zero. A length beyond
the range of numbers is refused all the same. -/
theorem edge_of_isZero (isZero : share.isZero = true) :
    edge (clampUnit (.real share)) length = Binary64.ofInt length >>= fun _ => .ok 0 := by
  rw [Binary64.eq_zero_of_isZero isZero]
  generalize share.isNegative = negative
  have kept : ∀ sign, clampUnit (.real (.zero sign)) = .real (.zero sign) := by decide +kernel
  have rounded : ∀ sign, (Binary64.zero sign + 0.5).floor = .ok 0 := by decide +kernel
  rw [kept negative, edge]
  simp only [Number.mul, Number.toBinary64]
  cases converted : Binary64.ofInt length with
  | error cause => rfl
  | ok whole =>
      obtain ⟨value, finite⟩ := Binary64.finite_of_ofInt converted
      have product := Binary64.zero_mul negative finite
      show (Binary64.zero negative * whole + 0.5).floor = .ok 0
      rw [product, rounded]

/-- A place of zero is the one that is used where none is given. -/
theorem edge_unlessZero (place : Option Binary64) :
    edge (clampUnit (.real (Binary64.unlessZero place 0))) length =
      edge (clampUnit (.real (place.getD 0))) length := by
  have standard : (0 : Binary64).isZero = true := by decide
  cases place with
  | none => rfl
  | some share =>
      rw [Binary64.unlessZero, Option.getD_some]
      split
      next isZero => rw [edge_of_isZero isZero, edge_of_isZero standard]
      next => rfl

/-- An extent of zero is used as if it were not there. -/
theorem unlessZero_extent (extent : Option Binary64) :
    Binary64.unlessZero extent 1 = (extent.filter (!·.isZero)).getD 1 := by
  cases extent with
  | none => rfl
  | some share => cases isZero : share.isZero <;> simp [Binary64.unlessZero, Option.filter, isZero]

/-- An item without a placement lies where the shares of its asset put it, as if they were its own,
or is refused for the same reason. Only an extent of zero is not used: the asset then reaches over
the whole width or height. -/
theorem resolve_placement (media : MediaItem) (frame : FrameSize) :
    (media.width.any (·.isZero) = false → media.height.any (·.isZero) = false →
        resolve none (some media) frame = resolve (some media.placement) (some media) frame) ∧
      resolve none (some media) frame =
        resolve (some media.dropEmptyExtents.placement) (some media) frame := by
  have general : resolve none (some media) frame =
      resolve (some media.dropEmptyExtents.placement) (some media) frame := by
    simp only [resolve, effective, toPixels, MediaItem.placement, MediaItem.dropEmptyExtents,
      edge_unlessZero, unlessZero_extent]
    rfl
  have kept {extent : Option Binary64} (used : extent.any (·.isZero) = false) :
      extent.filter (!·.isZero) = extent := by
    cases extent with
    | none => rfl
    | some share => simpa using used
  refine ⟨fun wide high => ?_, general⟩
  rw [general, MediaItem.dropEmptyExtents, kept wide, kept high]

/-- A picture at a negative zero, half as wide as the frame. -/
def oddPicture : MediaItem :=
  { id := "picture", kind := .image, filePath := "picture.png", duration := none, volume := none,
    muted := false, x := some (.zero true), y := some 0.25, width := some 0.5, height := none,
    text := none, fontFamily := none, fontSize := none, fontBold := false, fontItalic := false,
    fontColor := none, backgroundColor := none, backgroundTransparent := false,
    textAlignment := none }

theorem resolve_oddPicture :
    (oddPicture.width.any (·.isZero) = false ∧ oddPicture.height.any (·.isZero) = false) ∧
      resolve none (some oddPicture) ⟨1920, 1080⟩ =
        resolve (some oddPicture.placement) (some oddPicture) ⟨1920, 1080⟩ ∧
      resolve none (some oddPicture) ⟨1920, 1080⟩ = .ok ⟨0, 270, 960, 810, 0⟩ := by
  have facts : (oddPicture.width.any (·.isZero) = false ∧
      oddPicture.height.any (·.isZero) = false) ∧
        resolve none (some oddPicture) ⟨1920, 1080⟩ = .ok ⟨0, 270, 960, 810, 0⟩ := by
    decide +kernel
  obtain ⟨⟨wide, high⟩, resolved⟩ := facts
  exact ⟨⟨wide, high⟩, (resolve_placement oddPicture ⟨1920, 1080⟩).1 wide high, resolved⟩

/-- A picture without any width. -/
def flatPicture : MediaItem :=
  { oddPicture with width := some 0 }

/-- It is shown as wide as the frame, where an item that says the same gets one pixel. -/
theorem resolve_flatPicture :
    resolve none (some flatPicture) ⟨1920, 1080⟩ = .ok ⟨0, 270, 1920, 810, 0⟩ ∧
      resolve (some flatPicture.placement) (some flatPicture) ⟨1920, 1080⟩ =
        .ok ⟨0, 270, 1, 810, 0⟩ ∧
      resolve none (some flatPicture) ⟨1920, 1080⟩ ≠
        resolve (some flatPicture.placement) (some flatPicture) ⟨1920, 1080⟩ := by
  decide +kernel

end Geometry

end Montage
