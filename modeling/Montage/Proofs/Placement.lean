import Montage.Placement
import Montage.Proofs.Binary64.Arithmetic

/-!
# Rectangles in the frame

A clamped share is a share of the unit interval, and its part of a length is rounded to a number
between zero and that length. So is its edge: adding the half that rounds up and dropping the
fraction never passes a whole number of pixels. Every rectangle that is pushed into the frame
therefore lies inside it, however far its placement reaches beyond.
-/

namespace Montage

/-- A rectangle of at least one pixel that lies in a frame. -/
structure PixelRect.InFrame (rect : PixelRect) (frame : FrameSize) : Prop where
  left : 0 ≤ rect.x ∧ rect.x < frame.width
  top : 0 ≤ rect.y ∧ rect.y < frame.height
  width : 1 ≤ rect.width ∧ rect.x + rect.width ≤ frame.width
  height : 1 ≤ rect.height ∧ rect.y + rect.height ≤ frame.height

namespace Geometry

open Binary64 (ofRat)

variable {share : Number} {length : Int} {own : Option Geometry} {media : Option MediaItem}

/-- All shares of a placement are numbers. Infinities are numbers, too. -/
structure IsNumeric (geometry : Geometry) : Prop where
  x : geometry.x ≠ .real .nan
  y : geometry.y ≠ .real .nan
  width : geometry.width ≠ .real .nan
  height : geometry.height ≠ .real .nan

/-- The shares that place a timeline item are numbers: its own, and where it has none those that
its asset has. -/
structure UsesNumbers (own : Option Geometry) (media : Option MediaItem) : Prop where
  placed : ∀ geometry ∈ own, geometry.IsNumeric
  unplaced : own = none → ∀ asset ∈ media, asset.x ≠ some .nan ∧ asset.y ≠ some .nan ∧
    asset.width ≠ some .nan ∧ asset.height ≠ some .nan

theorem unlessZero_ne_nan {value : Option Binary64} {standard : Binary64}
    (number : value ≠ some .nan) (number' : standard ≠ .nan) :
    Binary64.unlessZero value standard ≠ .nan := by
  cases value with
  | none => exact number'
  | some value =>
      rw [Binary64.unlessZero]
      split
      · exact number'
      · intro equal
        exact number (congrArg some equal)

/-- The placement that is used is made of numbers. -/
theorem isNumeric_effective (uses : UsesNumbers own media) : (effective own media).IsNumeric := by
  have real {value : Option Binary64} {standard : Binary64} (number : value ≠ some .nan)
      (number' : standard ≠ .nan) : Number.real (Binary64.unlessZero value standard) ≠ .real .nan :=
    fun equal => unlessZero_ne_nan number number' (Number.real.inj equal)
  cases own with
  | some geometry => exact uses.placed geometry rfl
  | none =>
      cases media with
      | none => constructor <;> decide +kernel
      | some asset =>
          obtain ⟨x, y, width, height⟩ := uses.unplaced rfl asset rfl
          constructor
          · exact real x (by decide +kernel)
          · exact real y (by decide +kernel)
          · exact real width (by decide +kernel)
          · exact real height (by decide +kernel)

/-- A share of the unit interval. -/
def InUnit : Number → Prop
  | .int share => 0 ≤ share ∧ share ≤ 1
  | .real share => ∃ value, share.toRat? = some value ∧ 0 ≤ value ∧ value ≤ 1

/-- Clamping makes every number such a share. -/
theorem inUnit_clampUnit (number : share ≠ .real .nan) : InUnit (clampUnit share) := by
  cases share with
  | int share =>
      simp only [clampUnit, InUnit]
      omega
  | real share =>
      have number : share ≠ .nan := fun equal => number (congrArg Number.real equal)
      have ordered : (0 : Binary64) ≤ 1 := by decide +kernel
      obtain ⟨zero, one⟩ := Binary64.ne_nan_of_le ordered
      have between : ∃ kept, clampUnit (.real share) = .real kept ∧ 0 ≤ kept ∧ kept ≤ 1 := by
        refine ⟨_, rfl, ?_⟩
        split
        next outside => exact Binary64.clamp_mem number ordered
        next inside =>
          rw [not_or] at inside
          exact ⟨Binary64.le_of_not_lt number zero inside.1,
            Binary64.le_of_not_lt one number inside.2⟩
      obtain ⟨kept, equal, atLeast, atMost⟩ := between
      obtain ⟨value, finite⟩ := Binary64.isFinite_iff.mp
        (Binary64.isFinite_of_le_of_le atLeast atMost (by decide +kernel) (by decide +kernel))
      rw [equal]
      exact ⟨value, finite, (Binary64.le_iff_of_toRat? Binary64.toRat?_zero finite).mp atLeast,
        (Binary64.le_iff_of_toRat? finite Binary64.toRat?_one).mp atMost⟩

/-- Rounding never passes a bound that is a whole number of half pixels. -/
theorem exists_rounded {value bound : ℚ} {halves : Int} (twice : 2 * bound = halves)
    (limited : halves ≤ 2 ^ 33) (nonnegative : 0 ≤ value) (atMost : value ≤ bound)
    (zeroNegative : Bool) :
    ∃ result, (ofRat value zeroNegative).toRat? = some result ∧ 0 ≤ result ∧ result ≤ bound := by
  have size : (0 : ℚ) ≤ halves := by linarith
  obtain ⟨count, rfl⟩ := Int.eq_ofNat_of_zero_le (by exact_mod_cast size : 0 ≤ halves)
  rw [Int.cast_natCast] at twice size
  have bits : count < powerOfTwo 53 := by
    have apart : 2 ^ 33 < powerOfTwo 53 := by decide
    omega
  have kept : Binary64.rounded bound = bound := by
    apply Binary64.rounded_of_bits bits (show (-1074 : Int) ≤ -1 by decide)
    rw [← twice, zpow_neg_one]
    ring
  have inRange : bound < 2 ^ (1024 : Int) := by
    calc bound ≤ count := by linarith
      _ ≤ 2 ^ (33 : Int) := by exact_mod_cast limited
      _ < 2 ^ (1024 : Int) := zpow_lt_zpow_right₀ one_lt_two (by norm_num)
  exact Binary64.toRat?_ofRat_mem nonnegative atMost kept inRange zeroNegative

/-- The part of a length that a share of the unit interval takes lies between zero and the
length. -/
theorem exists_extent (inUnit : InUnit share) (positive : 1 ≤ length) (limited : length ≤ 2 ^ 31) :
    ∃ extent value, (share.mul (.int length) >>= Number.toBinary64) = .ok extent ∧
      extent.toRat? = some value ∧ 0 ≤ value ∧ value ≤ length := by
  have bits : length < powerOfTwo 53 := limited.trans_lt (by decide)
  cases share with
  | int share =>
      obtain ⟨atLeast, atMost⟩ := inUnit
      have nonnegative : 0 ≤ share * length := by positivity
      have below : share * length ≤ length := mul_le_of_le_one_left (by omega) atMost
      obtain ⟨extent, equal, finite⟩ := Binary64.ofInt_of_bits nonnegative (below.trans_lt bits)
      exact ⟨extent, _, equal, finite, by exact_mod_cast nonnegative, by exact_mod_cast below⟩
  | real share =>
      obtain ⟨part, finite, atLeast, atMost⟩ := inUnit
      obtain ⟨whole, equal, finite'⟩ := Binary64.ofInt_of_bits (by omega) bits
      have size : (0 : ℚ) ≤ length := by exact_mod_cast zero_le_one.trans positive
      have twice : 2 * (length : ℚ) = (2 * length : Int) := by push_cast; rfl
      obtain ⟨value, product, atLeast', atMost'⟩ := exists_rounded twice (by omega)
        (mul_nonneg atLeast size) (mul_le_of_le_one_left size atMost)
        (share.isNegative != whole.isNegative)
      rw [← Binary64.mul_of_toRat? finite finite'] at product
      refine ⟨share * whole, value, ?_, product, atLeast', atMost'⟩
      simp only [Number.mul, Number.toBinary64, equal]
      rfl

/-- The edge of a clamped share lies between the two ends of the length. -/
theorem exists_edge (number : share ≠ .real .nan) (positive : 1 ≤ length)
    (limited : length ≤ 2 ^ 31) :
    ∃ pixels, edge (clampUnit share) length = .ok pixels ∧ 0 ≤ pixels ∧ pixels ≤ length := by
  obtain ⟨extent, value, equal, finite, atLeast, atMost⟩ :=
    exists_extent (inUnit_clampUnit number) positive limited
  have half : (0.5 : Binary64).toRat? = some (1 / 2) := by decide +kernel
  have twice : 2 * ((length : ℚ) + 1 / 2) = (2 * length + 1 : Int) := by push_cast; ring
  obtain ⟨total, sum, nonnegative, below⟩ := exists_rounded twice (by omega)
    (add_nonneg atLeast one_half_pos.le) (add_le_add_left atMost (1 / 2))
    (extent.isNegative && (0.5 : Binary64).isNegative)
  rw [← Binary64.add_of_toRat? finite half] at sum
  refine ⟨⌊total⌋, ?_, Int.floor_nonneg.mpr nonnegative, ?_⟩
  · have chained : edge (clampUnit share) length =
        ((clampUnit share).mul (.int length) >>= Number.toBinary64) >>=
          fun extent => (extent + 0.5).floor := (bind_assoc _ _ _).symm
    rw [chained, equal]
    exact Binary64.floor_of_toRat? sum
  · apply Int.lt_add_one_iff.mp
    apply Int.floor_lt.mpr
    push_cast
    linarith

/-- Every placement whose shares are numbers has a rectangle, which lies in the frame. The edges are
pushed in far enough to leave room for one pixel, so the least width and height never undo it. -/
theorem inFrame_of_resolve (own : Option Geometry) (media : Option MediaItem) (frame : FrameSize)
    (wide : 1 ≤ frame.width ∧ frame.width ≤ 2 ^ 31)
    (high : 1 ≤ frame.height ∧ frame.height ≤ 2 ^ 31) (uses : UsesNumbers own media) :
    ∃ rect, resolve own media frame = .ok rect ∧ rect.InFrame frame := by
  have numeric := isNumeric_effective uses
  obtain ⟨left, lefts, left_nonneg, -⟩ := exists_edge numeric.x wide.1 wide.2
  obtain ⟨top, tops, top_nonneg, -⟩ := exists_edge numeric.y high.1 high.2
  obtain ⟨width, widths, -⟩ := exists_edge numeric.width wide.1 wide.2
  obtain ⟨height, heights, -⟩ := exists_edge numeric.height high.1 high.2
  have resolved : ∃ rect, resolve own media frame = .ok rect ∧
      rect.x = min left (frame.width - 1) ∧ rect.y = min top (frame.height - 1) ∧
      rect.width = max 1 (min width (frame.width - rect.x)) ∧
      rect.height = max 1 (min height (frame.height - rect.y)) := by
    rw [resolve, toPixels, lefts, tops, widths, heights]
    exact ⟨_, rfl, rfl, rfl, rfl, rfl⟩
  obtain ⟨rect, equal, x, y, width, height⟩ := resolved
  refine ⟨rect, equal, ?_⟩
  constructor
  all_goals omega

/-- A placement that begins at the far end of the frame, and reaches beyond it as far as numbers
go. -/
def farPlacement : Geometry :=
  { x := .real 0.9999
    y := .real (.infinite false)
    width := .int 3
    height := .real (.infinite true) }

theorem inFrame_farPlacement :
    UsesNumbers (some farPlacement) none ∧
      ∃ rect, resolve (some farPlacement) none ⟨1919, 1⟩ = .ok rect ∧
        rect.InFrame ⟨1919, 1⟩ := by
  have uses : UsesNumbers (some farPlacement) none := by
    constructor
    · intro geometry member
      cases member
      constructor <;> decide +kernel
    · intro absent
      contradiction
  exact ⟨uses, inFrame_of_resolve (some farPlacement) none ⟨1919, 1⟩ (by decide) (by decide) uses⟩

end Geometry

end Montage
