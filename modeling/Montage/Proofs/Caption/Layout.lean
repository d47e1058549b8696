import Montage.Caption
import Montage.Proofs.Binary64.Bounds

/-!
# Font sizes

Whatever text is fitted into whatever box, the size of its font lies in the range that stays
readable. The value that is no number never gets as far as the limits, because no line of that size
has a number of characters.

The limit of a box is applied to the lines of the last wrap. A text whose font is not raised to the
least readable size therefore has lines that leave each other room.
-/

namespace Montage.Caption

variable {metrics : TextMetrics} {text : List Char} {boxWidth boxHeight count : Int}
variable {asked : Option Number} {layout : Layout} {width fontSize limit optimal : Binary64}

/-- No line has a number of characters in a font whose size is no number. -/
theorem ne_nan_of_charactersPerLine
    (counted : metrics.charactersPerLine width fontSize = .ok count) : fontSize ≠ .nan := by
  rintro rfl
  have unscaled : Binary64.nan * metrics.wrapFactor = .nan := rfl
  have share : width.quotient .nan = .nan := by cases width <;> rfl
  obtain ⟨quotient, divided, floored⟩ := bind_eq_ok.mp counted
  rw [unscaled] at divided
  cases divided
  rw [share] at floored
  cases floored

/-! ## The last wrap -/

/-- The size at which a text fits best decides its lines, and the lines decide how far that size is
limited. -/
structure Fitting (metrics : TextMetrics) (text : List Char) (boxWidth boxHeight : Int)
    (layout : Layout) (optimal limit : Binary64) : Prop where
  number : optimal ≠ .nan
  lines : ∃ budget, layout.lines = wrap text budget
  limited : areaLimit boxWidth boxHeight layout.lineCount = .ok limit
  fontSize : layout.fontSize =
    ((optimal.least limit).greatest minimumFontSize).least maximumFontSize
  boxWidth : layout.boxWidth = boxWidth
  boxHeight : layout.boxHeight = boxHeight

theorem exists_fitting_of_fit (fitted : fit metrics text boxWidth boxHeight asked = .ok layout) :
    ∃ optimal limit, Fitting metrics text boxWidth boxHeight layout optimal limit := by
  obtain ⟨provisional, -, rest⟩ := bind_eq_ok.mp fitted
  obtain ⟨width, -, rest⟩ := bind_eq_ok.mp rest
  obtain ⟨before, -, rest⟩ := bind_eq_ok.mp rest
  obtain ⟨optimal, -, rest⟩ := bind_eq_ok.mp rest
  obtain ⟨budget, counted, rest⟩ := bind_eq_ok.mp rest
  obtain ⟨limit, limited, equal⟩ := bind_eq_ok.mp rest
  cases equal
  exact ⟨optimal, limit, ne_nan_of_charactersPerLine counted, ⟨budget, rfl⟩, limited, rfl, rfl, rfl⟩

/-! ## Limits -/

/-- A line may fill the greater part of the height that it has. -/
theorem spans_lineShare : (0.8 : Binary64).Spans (-1) 0 :=
  Binary64.spans_part (by norm_num) (by norm_num)

/-- Both limits of a box are numbers. -/
theorem areaLimit_eq_ok {lines : Nat} (limited : areaLimit boxWidth boxHeight lines = .ok limit) :
    ∃ tenth slot, Binary64.ofIntQuotient boxWidth 10 = .ok tenth ∧
      Binary64.ofIntQuotient boxHeight (max lines 1 : Nat) = .ok slot ∧
      tenth ≠ .nan ∧ slot * 0.8 ≠ .nan ∧ limit = tenth.least (slot * 0.8) := by
  obtain ⟨tenth, divided, rest⟩ := bind_eq_ok.mp limited
  obtain ⟨slot, divided', equal⟩ := bind_eq_ok.mp rest
  cases equal
  obtain ⟨share, finite, positive⟩ := spans_lineShare.pos
  exact ⟨tenth, slot, divided, divided', Binary64.ofIntQuotient_ne_nan divided,
    Binary64.mul_ne_nan (Binary64.ofIntQuotient_ne_nan divided') finite
      (Binary64.isZero_of_pos finite positive), rfl⟩

theorem areaLimit_ne_nan {lines : Nat} (limited : areaLimit boxWidth boxHeight lines = .ok limit) :
    limit ≠ .nan := by
  obtain ⟨tenth, slot, -, -, number, number', rfl⟩ := areaLimit_eq_ok limited
  exact Binary64.least_ne_nan number number'

theorem minimumFontSize_le_maximumFontSize : minimumFontSize ≤ maximumFontSize := by decide +kernel

/-- A text that was fitted has a readable size. -/
theorem fontSize_mem_of_fit (fitted : fit metrics text boxWidth boxHeight asked = .ok layout) :
    minimumFontSize ≤ layout.fontSize ∧ layout.fontSize ≤ maximumFontSize := by
  obtain ⟨optimal, limit, fitting⟩ := exists_fitting_of_fit fitted
  rw [fitting.fontSize]
  exact Binary64.clamp_mem
    (Binary64.least_ne_nan fitting.number (areaLimit_ne_nan fitting.limited))
    minimumFontSize_le_maximumFontSize

/-- A caption has a readable size. -/
theorem fontSize_mem_of_ofMedia? {platform : Platform} {media : MediaItem} {box : PixelRect}
    {caption : Caption} (captioned : ofMedia? metrics platform media box = .ok (some caption)) :
    minimumFontSize ≤ caption.layout.fontSize ∧ caption.layout.fontSize ≤ maximumFontSize := by
  simp only [ofMedia?] at captioned
  split at captioned
  next => cases captioned
  next =>
    obtain ⟨layout, fitted, rest⟩ := bind_eq_ok.mp captioned
    obtain ⟨fontColor, -, rest⟩ := bind_eq_ok.mp rest
    obtain ⟨background, -, equal⟩ := bind_eq_ok.mp rest
    cases equal
    exact fontSize_mem_of_fit fitted

/-! ## Room for lines -/

/-- The lines have room in the box: the font takes at most a tenth of the width and at most the
greater part of the height of a line, and the lines are not moved into each other. -/
structure Layout.Roomy (layout : Layout) : Prop where
  width : ∃ tenth, Binary64.ofIntQuotient layout.boxWidth 10 = .ok tenth ∧ layout.fontSize ≤ tenth
  height : ∃ slot, layout.slotHeight = .ok slot ∧ layout.fontSize ≤ slot * 0.8
  spacing : ∃ pixels, layout.lineSpacing = .ok pixels ∧ 0 ≤ pixels

/-- The space between lines that are not higher than their slots is not negative. -/
theorem lineSpacing_nonneg {slot : Binary64} {size : ℚ} (slots : layout.slotHeight = .ok slot)
    (finite : layout.fontSize.toRat? = some size) (nonnegative : 0 ≤ size)
    (atMost : layout.fontSize ≤ slot) :
    ∃ pixels, layout.lineSpacing = .ok pixels ∧ 0 ≤ pixels := by
  rw [Layout.lineSpacing]
  split
  next => exact ⟨0, rfl, le_rfl⟩
  next =>
    obtain ⟨height, finite'⟩ := Binary64.isFinite_iff.mp (Binary64.of_ofIntQuotient slots).2
    have below := (Binary64.le_iff_of_toRat? finite finite').mp atMost
    obtain ⟨difference, apart, positive⟩ := Binary64.sub_of_le finite finite' nonnegative below
    obtain ⟨pixels, nearest, positive⟩ := Binary64.round_of_nonneg apart positive
    exact ⟨pixels, bind_eq_ok.mpr ⟨slot, slots, nearest⟩, positive⟩

/-- Lines overlap only where the least readable size forces them to. -/
theorem roomy_of_fit (fitted : fit metrics text boxWidth boxHeight asked = .ok layout)
    (tall : 1 ≤ boxHeight) :
    layout.boxWidth = boxWidth ∧ layout.boxHeight = boxHeight ∧
      (layout.fontSize = minimumFontSize ∨ layout.Roomy) := by
  obtain ⟨optimal, limit, fitting⟩ := exists_fitting_of_fit fitted
  obtain ⟨tenth, slot, divided, divided', number, number', rfl⟩ := areaLimit_eq_ok fitting.limited
  have limited := areaLimit_ne_nan fitting.limited
  refine ⟨fitting.boxWidth, fitting.boxHeight, ?_⟩
  rcases Binary64.clamp_eq_or_le (Binary64.least_ne_nan fitting.number limited)
      minimumFontSize_le_maximumFontSize with least | lowered
  · exact .inl (fitting.fontSize.trans least)
  right
  rw [← fitting.fontSize] at lowered
  have inBox := Binary64.le_trans lowered (Binary64.least_le fitting.number limited)
  have inSlot := Binary64.le_trans inBox (Binary64.least_le number number')
  have slots : layout.slotHeight = .ok slot := by
    rw [Layout.slotHeight, fitting.boxHeight]
    exact divided'
  have slotPart : slot * 0.8 ≤ slot := by
    obtain ⟨share, part, positive, atMost⟩ := spans_lineShare.part
    have unsigned := Binary64.unsigned_of_ofIntQuotient divided' (by omega) (by omega)
    exact unsigned.mul_le part positive atMost
  -- The size is finite because it is readable, and so is the space that it leaves.
  obtain ⟨readable, readable'⟩ := fontSize_mem_of_fit fitted
  have finite : layout.fontSize.IsFinite := Binary64.isFinite_of_le_of_le readable readable'
    (by decide +kernel) (by decide +kernel)
  obtain ⟨size, finite⟩ := Binary64.isFinite_iff.mp finite
  have least : minimumFontSize.toRat? = some 24 := by decide +kernel
  have positive := (Binary64.le_iff_of_toRat? least finite).mp readable
  constructor
  · exact ⟨tenth, fitting.boxWidth ▸ divided,
      Binary64.le_trans inBox (Binary64.least_le_first number)⟩
  · exact ⟨slot, slots, inSlot⟩
  · exact lineSpacing_nonneg slots finite (by linarith) (Binary64.le_trans inSlot slotPart)

theorem roomy_severalLines :
    ∃ layout, fit {} "A title of several lines".toList 400 300 none = .ok layout ∧
      (1 : Int) ≤ 300 ∧ layout.boxWidth = 400 ∧ layout.boxHeight = 300 ∧
        (layout.fontSize = minimumFontSize ∨ layout.Roomy) := by
  have some : (fit {} "A title of several lines".toList 400 300 none).toOption.isSome = true := by
    decide +kernel
  match fitted : fit {} "A title of several lines".toList 400 300 none with
  | .ok layout => exact ⟨layout, rfl, by decide, roomy_of_fit fitted (by decide)⟩
  | .error refused =>
      rw [fitted] at some
      contradiction

end Montage.Caption
