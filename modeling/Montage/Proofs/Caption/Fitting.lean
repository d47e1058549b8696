import Montage.Proofs.Caption.Layout
import Montage.Proofs.Caption.Rewrap

/-!
# Sizes that can be fitted

A text is fitted in a chain of products, quotients and limits, and the number of characters on a
line is asked for twice on the way. That number does not exist where a size is no number, nor where
a line would hold infinitely many of its characters.

A provisional size at which characters can be counted leads to an optimal size at which they can be
counted as well: each of the limits is either a size above the provisional one or far above the
least numbers, unless the size is zero and no characters are counted at all. So only a size that is
asked for can be refused. It is refused if it is infinite, since the share of infinitely wide lines
is no number, and if it is too small.
-/

namespace Montage.Caption

open Montage.Binary64 (Spans Unsigned)

variable {text : List Char} {boxWidth boxHeight : Int} {lines : List (List Char)}
variable {base size width : Binary64} {value : ℚ}

/-! ## Boxes -/

/-- A box whose sides are far within the range of binary64 numbers. -/
structure Drawable (boxWidth boxHeight : Int) : Prop where
  width : 1 ≤ boxWidth ∧ boxWidth ≤ 2 ^ 900
  height : 1 ≤ boxHeight ∧ boxHeight ≤ 2 ^ 900

/-- The width that the lines of a box may have. -/
def lineWidth (boxWidth : Int) : Binary64 :=
  Binary64.ofRat boxWidth false * 0.99

/-- How many characters of a size fill a line of a box, with the fraction of the last one. -/
def lineCapacity (boxWidth : Int) (size : Binary64) : Binary64 :=
  (lineWidth boxWidth).quotient (size * 0.6)

theorem spans_wrapFactor : (0.6 : Binary64).Spans (-1) 0 :=
  Binary64.spans_part (by norm_num) (by norm_num)

namespace Drawable

variable (drawable : Drawable boxWidth boxHeight)
include drawable

theorem ofInt_width : Binary64.ofInt boxWidth = .ok (Binary64.ofRat boxWidth false) ∧
    (Binary64.ofRat boxWidth false).Spans 0 900 :=
  Binary64.ofInt_of_le drawable.width.1 drawable.width.2 (by norm_num)

theorem ofInt_height : Binary64.ofInt boxHeight = .ok (Binary64.ofRat boxHeight false) ∧
    (Binary64.ofRat boxHeight false).Spans 0 900 :=
  Binary64.ofInt_of_le drawable.height.1 drawable.height.2 (by norm_num)

theorem spans_lineWidth : (lineWidth boxWidth).Spans (-1) 900 := by
  have part : (0.99 : Binary64).Spans (-1) 0 := Binary64.spans_part (by norm_num) (by norm_num)
  exact drawable.ofInt_width.2.mul part (by norm_num)

end Drawable

/-! ## Characters on a line -/

/-- However small the font is, its characters have a width. -/
theorem toRat?_characterWidth (finite : size.toRat? = some value) (positive : 0 < value) :
    ∃ width, (size * 0.6).toRat? = some width ∧ 0 < width := by
  obtain ⟨factor, part, factorPositive, factorAtMost⟩ := spans_wrapFactor.part
  have unsigned := Binary64.unsigned_of_pos finite positive
  -- Rounding does not let the least size of all become less.
  let least : Binary64 := .finite false 1 (-1074) (by decide)
  have leastSize : least.toRat? = some (2 ^ (-1074 : Int)) := by decide +kernel
  have leastWidth : least * 0.6 = least := by decide +kernel
  have atLeast : least ≤ size :=
    (Binary64.le_iff_of_toRat? leastSize finite).mpr (Binary64.zpow_le_of_pos finite positive)
  have wide : least ≤ size * 0.6 := by
    rw [← leastWidth]
    exact (Binary64.unsigned_of_pos leastSize (by positivity)).mul_le_mul unsigned part
      factorPositive atLeast
  have narrow := unsigned.mul_le part factorPositive factorAtMost
  obtain ⟨width, counted⟩ := Binary64.isFinite_iff.mp (Binary64.isFinite_of_le_of_le wide narrow
    (Binary64.isFinite_iff.mpr ⟨_, leastSize⟩) (Binary64.isFinite_iff.mpr ⟨_, finite⟩))
  have above := (Binary64.le_iff_of_toRat? leastSize counted).mp wide
  exact ⟨width, counted, (zpow_pos two_pos _).trans_le above⟩

/-- A line of a font with a size holds the whole characters of its capacity. -/
theorem charactersPerLine_of_pos (finite : size.toRat? = some value) (positive : 0 < value) :
    TextMetrics.charactersPerLine {} (lineWidth boxWidth) size =
      (lineCapacity boxWidth size).floor := by
  obtain ⟨width, counted, some⟩ := toRat?_characterWidth finite positive
  have above : ¬size ≤ 0 := by
    rw [Binary64.le_iff_of_toRat? finite Binary64.toRat?_zero]
    exact positive.not_ge
  have nonzero : (size * 0.6).isZero = false := Binary64.isZero_of_pos counted some
  rw [TextMetrics.charactersPerLine, if_neg above, Binary64.div, nonzero]
  rfl

/-- A greater font has lines of fewer characters. -/
theorem Drawable.isFinite_lineCapacity_of_le {value' : ℚ} (drawable : Drawable boxWidth boxHeight)
    (finite : base.toRat? = some value) (positive : 0 < value)
    (finite' : size.toRat? = some value') (atMost : base ≤ size)
    (counted : (lineCapacity boxWidth base).IsFinite) : (lineCapacity boxWidth size).IsFinite := by
  obtain ⟨factor, part, factorPositive⟩ := spans_wrapFactor.pos
  have positive' := positive.trans_le ((Binary64.le_iff_of_toRat? finite finite').mp atMost)
  obtain ⟨narrow, narrowFinite, some⟩ := toRat?_characterWidth finite positive
  obtain ⟨wide, wideFinite, some'⟩ := toRat?_characterWidth finite' positive'
  obtain ⟨room, roomFinite, roomPositive⟩ := drawable.spans_lineWidth.pos
  have unsigned := drawable.spans_lineWidth.unsigned
  have scaled := Unsigned.mul_le_mul (Binary64.unsigned_of_pos finite positive)
    (Binary64.unsigned_of_pos finite' positive') part factorPositive atMost
  have widths := (Binary64.le_iff_of_toRat? narrowFinite wideFinite).mp scaled
  have fewer : lineCapacity boxWidth size ≤ lineCapacity boxWidth base := by
    rw [lineCapacity, lineCapacity, unsigned.quotient_eq roomFinite wideFinite some',
      unsigned.quotient_eq roomFinite narrowFinite some]
    exact Binary64.ofRat_le_ofRat (by positivity) (by gcongr)
  exact (unsigned.quotient roomFinite wideFinite some').isFinite_of_le fewer counted

/-- A size far below that of every pixel, at which characters can still be counted. -/
def hairline : Binary64 :=
  Binary64.ofRat (2 ^ (-100 : Int)) false

theorem Drawable.isFinite_lineCapacity_of_spans (drawable : Drawable boxWidth boxHeight)
    (spans : size.Spans (-100) 900) : (lineCapacity boxWidth size).IsFinite := by
  have width := spans.mul spans_wrapFactor (by norm_num)
  exact (drawable.spans_lineWidth.quotient width (by norm_num)).isFinite

/-! ## Limits of the optimal size -/

/-- The greatest size at which so many lines fit under each other. -/
def heightLimit (boxHeight : Int) (count : Nat) : Except ArithmeticError Binary64 :=
  if count = 1 then do
    let height ← Binary64.ofInt boxHeight
    pure (height * 0.8)
  else do
    let slot ← Binary64.ofIntQuotient boxHeight count
    pure (slot * 0.7)

/-- How far a size may grow. -/
def growthLimit (size : Binary64) (count : Nat) : Binary64 :=
  if count = 1 then size * 2 else size * 1.5

theorem optimalFontSize_eq (metrics : TextMetrics) (lines : List (List Char)) (size : Binary64)
    (boxWidth boxHeight : Int) :
    optimalFontSize metrics lines size boxWidth boxHeight = (do
      let height ← heightLimit boxHeight lines.length
      let growth := growthLimit size lines.length
      if widestLine metrics size lines ≤ 0 then return height.least growth
      else
        let width ← Binary64.ofInt boxWidth
        let share ← size.div (widestLine metrics size lines)
        return ((width * 0.9 * share).least height).least growth) := by
  simp only [optimalFontSize, heightLimit, growthLimit]
  split
  next single => rw [bind_assoc]
  next several => rw [bind_assoc]

theorem Drawable.heightLimit_eq_ok (drawable : Drawable boxWidth boxHeight) {count : Nat}
    (some : 1 ≤ count) (few : count ≤ 2 ^ 66) :
    ∃ height, heightLimit boxHeight count = .ok height ∧ height.Spans (-100) 900 := by
  rw [heightLimit]
  split
  next single =>
    obtain ⟨whole, spans⟩ := drawable.ofInt_height
    refine ⟨_, bind_eq_ok.mpr ⟨_, whole, rfl⟩, ?_⟩
    exact (spans.mul spans_lineShare (by norm_num)).mono (by norm_num) (by norm_num)
  next several =>
    obtain ⟨slot, divided, spans⟩ := Binary64.ofIntQuotient_of_le drawable.height.1
      drawable.height.2 (Int.ofNat_le.mpr some) (by exact_mod_cast few) (by norm_num)
    have part : (0.7 : Binary64).Spans (-1) 0 := Binary64.spans_part (by norm_num) (by norm_num)
    refine ⟨_, bind_eq_ok.mpr ⟨slot, divided, rfl⟩, ?_⟩
    exact (spans.mul part (by norm_num)).mono (by norm_num) (by norm_num)

theorem le_growthLimit (finite : size.toRat? = some value) (positive : 0 < value) (count : Nat) :
    (growthLimit size count).Unsigned ∧ size ≤ growthLimit size count := by
  have unsigned := Binary64.unsigned_of_pos finite positive
  rw [growthLimit]
  split
  next single =>
    have twice : (2 : Binary64).toRat? = some 2 := by decide +kernel
    exact ⟨unsigned.mul twice two_pos, unsigned.le_mul finite twice one_le_two⟩
  next several =>
    have half : (1.5 : Binary64).toRat? = some (3 / 2) := by decide +kernel
    exact ⟨unsigned.mul half (by norm_num), unsigned.le_mul finite half (by norm_num)⟩

/-- The widest line is as wide as one of the lines. -/
theorem widestLine_mem (metrics : TextMetrics) (size : Binary64) (some : lines ≠ []) :
    ∃ line ∈ lines, widestLine metrics size lines = metrics.width line size := by
  obtain ⟨line, rest, rfl⟩ := List.exists_cons_of_ne_nil some
  have widest : widestLine metrics size (line :: rest) ∈
      (line :: rest).map (metrics.width · size) := Binary64.foldl_greatest_mem _ _
  obtain ⟨other, member, equal⟩ := List.mem_map.mp widest
  exact ⟨other, member, equal.symm⟩

/-- A line is at most as wide as so many characters are high. -/
theorem width_le {line : List Char} (finite : size.toRat? = some value) (positive : 0 < value)
    (few : line.length ≤ 2 ^ 66) :
    (TextMetrics.width {} line size).Unsigned ∧
      TextMetrics.width {} line size ≤ Binary64.ofRat (2 ^ 66 * value) false := by
  have part : (0.25 : Binary64).toRat? = some (1 / 4) := by decide +kernel
  have kept : Binary64.rounded (2 ^ (66 : Int)) = 2 ^ (66 : Int) :=
    Binary64.rounded_zpow (by norm_num)
  have few : (line.length : ℚ) ≤ 2 ^ (66 : Int) := by exact_mod_cast few
  obtain ⟨count, counted, least, most⟩ := Binary64.toRat?_ofRat_mem (Nat.cast_nonneg _) few kept
    (zpow_lt_zpow_right₀ one_lt_two (by norm_num)) false
  have unsigned : (Binary64.ofNat line.length).Unsigned :=
    Binary64.unsigned_ofRat (Nat.cast_nonneg _)
  have height := unsigned.mul finite positive
  refine ⟨height.mul part (by norm_num), ?_⟩
  have narrower := height.mul_le part (by norm_num) (by norm_num)
  have limited : Binary64.ofNat line.length * size ≤ Binary64.ofRat (2 ^ 66 * value) false := by
    rw [unsigned.mul_eq counted finite positive]
    exact Binary64.ofRat_le_ofRat (by positivity) (by gcongr; exact_mod_cast most)
  exact Binary64.le_trans narrower limited

/-! ## The optimal size -/

/-- A size that a limit allows: either it is not above zero, so that no characters are counted, or
it is at least a size at which they can be counted. -/
def Sizeable (provisional size : Binary64) : Prop :=
  size ≤ 0 ∨ provisional ≤ size ∨ hairline ≤ size

variable {provisional : Binary64}

theorem Sizeable.least {other : Binary64} (sizeable : Sizeable provisional size)
    (sizeable' : Sizeable provisional other) : Sizeable provisional (size.least other) := by
  rcases Binary64.least_eq_or size other with first | second
  · rwa [first]
  · rwa [second]

/-- Only an infinitely wide line is stretched by nothing. -/
theorem share_cases {widest : Binary64} (finite : provisional.toRat? = some value)
    (positive : 0 < value) (unsigned : widest.Unsigned) (wide : ¬widest ≤ 0)
    (narrow : widest ≤ Binary64.ofRat (2 ^ 66 * value) false) :
    widest.isZero = false ∧ (provisional.quotient widest).Unsigned ∧
      (provisional.quotient widest = 0 ∨
        Binary64.ofRat (2 ^ (-66 : Int)) false ≤ provisional.quotient widest) := by
  have start := Binary64.unsigned_of_pos finite positive
  cases widest with
  | nan => exact absurd rfl unsigned.number
  | infinite negative =>
      cases unsigned.sign
      rw [start.quotient_infinite (Binary64.isFinite_iff.mpr ⟨value, finite⟩)]
      exact ⟨rfl, Binary64.unsigned_ofRat le_rfl, .inl rfl⟩
  | finite negative significand exponent canonical =>
      obtain ⟨length, counted⟩ := Binary64.exists_toRat? negative significand exponent canonical
      rw [Binary64.le_iff_of_toRat? counted Binary64.toRat?_zero, not_le] at wide
      have kept : Binary64.rounded (2 ^ 66 * value) = 2 ^ 66 * value :=
        Binary64.rounded_scaled finite positive.le 66
      have limited := Binary64.le_of_le_ofRat counted (by positivity) kept narrow
      refine ⟨Binary64.isZero_of_pos counted wide, start.quotient finite counted wide, .inr ?_⟩
      rw [start.quotient_eq finite counted wide]
      refine Binary64.ofRat_le_ofRat (by positivity) ?_
      rw [le_div_iff₀ wide, zpow_neg, inv_mul_le_iff₀ (by positivity)]
      exact_mod_cast limited

/-- Stretching the widest line over its box gives a size. -/
theorem Drawable.sizeable_stretched (drawable : Drawable boxWidth boxHeight)
    (provisional : Binary64) {share : Binary64} (unsigned : share.Unsigned)
    (shared : share = 0 ∨ Binary64.ofRat (2 ^ (-66 : Int)) false ≤ share) :
    (Binary64.ofRat boxWidth false * 0.9 * share).Unsigned ∧
      Sizeable provisional (Binary64.ofRat boxWidth false * 0.9 * share) := by
  have part : (0.9 : Binary64).Spans (-1) 0 := Binary64.spans_part (by norm_num) (by norm_num)
  have room := drawable.ofInt_width.2.mul part (by norm_num)
  obtain ⟨width, finite, positive⟩ := room.pos
  rw [Binary64.product_comm]
  refine ⟨unsigned.mul finite positive, ?_⟩
  rcases shared with rfl | atLeast
  · left
    rw [unsigned.mul_eq Binary64.toRat?_zero finite positive, zero_mul]
    exact Binary64.le_self (Binary64.ofRat_ne_nan 0 false)
  · right
    right
    have power : (Binary64.ofRat (2 ^ (-66 : Int)) false).Spans (-66) (-66) :=
      Binary64.spans_ofRat le_rfl le_rfl (by norm_num) false
    exact Binary64.le_trans ((power.mul room (by norm_num)).le (by norm_num))
      (power.unsigned.mul_le_mul unsigned finite positive atLeast)

/-- A provisional size leads to an optimal one, whatever the lines are. -/
theorem Drawable.optimalFontSize_eq_ok (drawable : Drawable boxWidth boxHeight)
    (finite : provisional.toRat? = some value) (positive : 0 < value) (some : lines ≠ [])
    (few : growth lines ≤ 2 ^ 66) :
    ∃ optimal, optimalFontSize {} lines provisional boxWidth boxHeight = .ok optimal ∧
      optimal.IsFinite ∧ Sizeable provisional optimal := by
  obtain ⟨height, limited, spans⟩ := drawable.heightLimit_eq_ok
    (List.length_pos_iff.mpr some) ((length_le_growth lines).trans few)
  obtain ⟨grownUnsigned, grown⟩ := le_growthLimit finite positive lines.length
  have high : Sizeable provisional height := .inr (.inr (spans.le le_rfl))
  have finish {fitting : Binary64} (unsigned : fitting.Unsigned) (atMost : fitting ≤ height)
      (sizeable : Sizeable provisional fitting) :
      (fitting.least (growthLimit provisional lines.length)).IsFinite ∧
        Sizeable provisional (fitting.least (growthLimit provisional lines.length)) := by
    have lesser : fitting.least (growthLimit provisional lines.length) ≤ height :=
      Binary64.le_trans (Binary64.least_le_first unsigned.number) atMost
    exact ⟨(unsigned.least grownUnsigned).isFinite_of_le lesser spans.isFinite,
      sizeable.least (.inr (.inl grown))⟩
  obtain ⟨line, member, widest⟩ := widestLine_mem {} provisional some
  have short : line.length ≤ 2 ^ 66 := (length_lt_growth_of_mem member).le.trans few
  obtain ⟨unsigned, narrow⟩ := width_le finite positive short
  rw [optimalFontSize_eq, widest, limited]
  by_cases empty : TextMetrics.width {} line provisional ≤ 0
  · exact ⟨_, if_pos empty,
      finish spans.unsigned (Binary64.le_self spans.unsigned.number) high⟩
  · obtain ⟨nonzero, shareUnsigned, shared⟩ := share_cases finite positive unsigned empty narrow
    have divided : provisional.div (TextMetrics.width {} line provisional) =
        .ok (provisional.quotient (TextMetrics.width {} line provisional)) := by
      rw [Binary64.div, nonzero]
      rfl
    obtain ⟨stretchedUnsigned, stretched⟩ :=
      drawable.sizeable_stretched provisional shareUnsigned shared
    refine ⟨_, (if_neg empty).trans (bind_eq_ok.mpr ⟨_, drawable.ofInt_width.1,
      bind_eq_ok.mpr ⟨_, divided, rfl⟩⟩), ?_⟩
    exact finish (stretchedUnsigned.least spans.unsigned)
      (Binary64.least_le stretchedUnsigned.number spans.unsigned.number) (stretched.least high)

/-! ## Layouts -/

/-- Where characters can be counted at the provisional size, they can be at every size that the
limits allow. -/
theorem Drawable.charactersPerLine_eq_ok (drawable : Drawable boxWidth boxHeight)
    (finite : provisional.toRat? = some value) (positive : 0 < value)
    (counted : (lineCapacity boxWidth provisional).IsFinite) (sized : size.IsFinite)
    (sizeable : Sizeable provisional size) :
    ∃ budget, TextMetrics.charactersPerLine {} (lineWidth boxWidth) size = .ok budget := by
  obtain ⟨given, sized⟩ := Binary64.isFinite_iff.mp sized
  by_cases none : size ≤ 0
  · exact ⟨0, if_pos none⟩
  · rw [Binary64.le_iff_of_toRat? sized Binary64.toRat?_zero, not_le] at none
    have capacity : (lineCapacity boxWidth size).IsFinite := by
      rcases sizeable with atMost | atLeast | atLeast
      · exact absurd ((Binary64.le_iff_of_toRat? sized Binary64.toRat?_zero).mp atMost) none.not_ge
      · exact drawable.isFinite_lineCapacity_of_le finite positive sized atLeast counted
      · have power : hairline.Spans (-100) (-100) :=
          Binary64.spans_ofRat le_rfl le_rfl (by norm_num) false
        obtain ⟨least, leastFinite, leastPositive⟩ := power.pos
        exact drawable.isFinite_lineCapacity_of_le leastFinite leastPositive sized atLeast
          (drawable.isFinite_lineCapacity_of_spans (power.mono le_rfl (by norm_num)))
    obtain ⟨characters, whole⟩ := Binary64.isFinite_iff.mp capacity
    exact ⟨⌊characters⌋, (charactersPerLine_of_pos sized none).trans
      (Binary64.floor_of_toRat? whole)⟩

theorem Drawable.areaLimit_eq_ok (drawable : Drawable boxWidth boxHeight) {count : Nat}
    (few : count ≤ 2 ^ 66) : ∃ limit, areaLimit boxWidth boxHeight count = .ok limit := by
  obtain ⟨tenth, divided, -⟩ := Binary64.ofIntQuotient_of_le drawable.width.1 drawable.width.2
    (by norm_num : (1 : Int) ≤ 10) (by norm_num : (10 : Int) ≤ 2 ^ 4) (by norm_num)
  have few : ((max count 1 : Nat) : Int) ≤ 2 ^ 66 := by exact_mod_cast max_le few (by norm_num)
  obtain ⟨slot, divided', -⟩ := Binary64.ofIntQuotient_of_le drawable.height.1 drawable.height.2
    (Int.ofNat_le.mpr (le_max_right count 1)) few (by norm_num)
  exact ⟨_, bind_eq_ok.mpr ⟨tenth, divided, bind_eq_ok.mpr ⟨slot, divided', rfl⟩⟩⟩

theorem growth_wrap_short (short : text.length < 2 ^ 64) (budget : Int) :
    growth (wrap text budget) ≤ 2 ^ 66 := by
  have doubled := growth_wrap_le text budget
  omega

/-- A text is fitted from every provisional size at which its characters can be counted. -/
theorem Drawable.fit_of_provisional (drawable : Drawable boxWidth boxHeight)
    {asked : Option Number} (short : text.length < 2 ^ 64)
    (provided : provisionalFontSize asked boxWidth boxHeight = .ok provisional)
    (finite : provisional.toRat? = some value) (positive : 0 < value)
    (counted : (lineCapacity boxWidth provisional).IsFinite) :
    ∃ layout, fit {} text boxWidth boxHeight asked = .ok layout := by
  have few (budget : Int) := growth_wrap_short short budget
  obtain ⟨before, counted'⟩ := drawable.charactersPerLine_eq_ok finite positive counted
    (Binary64.isFinite_iff.mpr ⟨value, finite⟩)
    (.inr (.inl (Binary64.le_self (Binary64.unsigned_of_pos finite positive).number)))
  obtain ⟨optimal, found, sized, sizeable⟩ := drawable.optimalFontSize_eq_ok finite positive
    (wrap_ne_nil text before) (few before)
  obtain ⟨budget, counted''⟩ :=
    drawable.charactersPerLine_eq_ok finite positive counted sized sizeable
  obtain ⟨limit, limited⟩ := drawable.areaLimit_eq_ok
    ((length_le_growth (wrap text budget)).trans (few budget))
  exact ⟨_, bind_eq_ok.mpr ⟨provisional, provided, bind_eq_ok.mpr ⟨_, drawable.ofInt_width.1,
    bind_eq_ok.mpr ⟨before, counted', bind_eq_ok.mpr ⟨optimal, found,
    bind_eq_ok.mpr ⟨budget, counted'', bind_eq_ok.mpr ⟨limit, limited, rfl⟩⟩⟩⟩⟩⟩⟩

/-! ## Sizes that cannot be fitted -/

/-- A font without bounds leaves no characters on a line. -/
theorem charactersPerLine_infinite (drawable : Drawable boxWidth boxHeight) :
    TextMetrics.charactersPerLine {} (lineWidth boxWidth) (.infinite false) = .ok 0 := by
  obtain ⟨factor, part, positive⟩ := spans_wrapFactor.pos
  have room := drawable.spans_lineWidth
  have above : ¬Binary64.infinite false ≤ 0 := by decide +kernel
  have wide : Binary64.infinite false * 0.6 = .infinite false :=
    Unsigned.infinite_mul part positive
  have none : (lineWidth boxWidth).quotient (.infinite false) = 0 :=
    room.unsigned.quotient_infinite room.isFinite
  have floored : (0 : Binary64).floor = .ok 0 := by decide +kernel
  rw [TextMetrics.charactersPerLine, if_neg above]
  exact bind_eq_ok.mpr ⟨0, by rw [wide, ← none]; rfl, floored⟩

theorem charactersPerLine_nan (width : Binary64) :
    TextMetrics.charactersPerLine {} width .nan = .error .nanToInteger := by
  cases width <;> rfl

/-- The lines of a font without bounds are infinitely wide, or of no known width where they are
empty. -/
theorem width_infinite (line : List Char) :
    TextMetrics.width {} line (.infinite false) = .infinite false ∨
      TextMetrics.width {} line (.infinite false) = .nan := by
  have part : (0.25 : Binary64).toRat? = some (1 / 4) := by decide +kernel
  have count : (Binary64.ofNat line.length).Unsigned := Binary64.unsigned_ofRat (Nat.cast_nonneg _)
  have wide : Binary64.infinite false * 0.25 = .infinite false :=
    Unsigned.infinite_mul part (by norm_num)
  change Binary64.ofNat line.length * .infinite false * 0.25 = _ ∨
    Binary64.ofNat line.length * .infinite false * 0.25 = _
  rcases count.mul_infinite with infinite | unknown
  · rw [infinite]
    exact .inl wide
  · rw [unknown]
    exact .inr rfl

/-- So their share of the box is no number, and neither is the optimal size. -/
theorem Drawable.optimalFontSize_infinite (drawable : Drawable boxWidth boxHeight)
    (some : lines ≠ []) (few : growth lines ≤ 2 ^ 66) :
    optimalFontSize {} lines (.infinite false) boxWidth boxHeight = .ok .nan := by
  obtain ⟨height, limited, -⟩ := drawable.heightLimit_eq_ok
    (List.length_pos_iff.mpr some) ((length_le_growth lines).trans few)
  obtain ⟨line, -, widest⟩ := widestLine_mem {} (.infinite false) some
  obtain ⟨above, share⟩ : ¬TextMetrics.width {} line (.infinite false) ≤ 0 ∧
      (Binary64.infinite false).div (TextMetrics.width {} line (.infinite false)) = .ok .nan := by
    rcases width_infinite line with equal | equal
    · rw [equal]
      exact ⟨by decide +kernel, rfl⟩
    · rw [equal]
      exact ⟨by decide +kernel, rfl⟩
  rw [optimalFontSize_eq, widest, limited]
  refine (if_neg above).trans (bind_eq_ok.mpr ⟨_, drawable.ofInt_width.1,
    bind_eq_ok.mpr ⟨_, share, ?_⟩⟩)
  rw [Binary64.mul_nan, Binary64.nan_least, Binary64.nan_least]
  rfl

/-! ## Sizes that are asked for -/

theorem provisionalFontSize_of_pos (above : 0 < size) :
    provisionalFontSize (some (.real size)) boxWidth boxHeight = .ok size := by
  have positive : (Number.real size).isPositive = true := decide_eq_true above
  rw [provisionalFontSize, Option.filter_some, if_pos positive]
  rfl

/-- Where no size above zero is asked for, the box has one. -/
theorem Drawable.provisionalFontSize_eq_ok (drawable : Drawable boxWidth boxHeight)
    {asked : Option Binary64} (unasked : ∀ size ∈ asked, ¬0 < size) :
    ∃ size, provisionalFontSize (asked.map .real) boxWidth boxHeight = .ok size ∧
      size.Spans (-100) 900 := by
  have none : (asked.map Number.real).filter Number.isPositive = none := by
    cases asked with
    | none => rfl
    | some size =>
        have below : (Number.real size).isPositive = false := decide_eq_false (unasked size rfl)
        rw [Option.map_some, Option.filter_some, below]
        rfl
  have shorter : 1 ≤ min boxWidth boxHeight ∧ min boxWidth boxHeight ≤ 2 ^ 900 :=
    ⟨le_min drawable.width.1 drawable.height.1, (min_le_left _ _).trans drawable.width.2⟩
  obtain ⟨side, spans⟩ := Binary64.ofInt_of_le shorter.1 shorter.2 (by norm_num)
  have part : (0.2 : Binary64).Spans (-3) 0 :=
    Binary64.spans_ofRat (by norm_num) (by norm_num) (by norm_num) false
  rw [provisionalFontSize, none]
  exact ⟨_, bind_eq_ok.mpr ⟨_, side, rfl⟩,
    (spans.mul part (by norm_num)).mono (by norm_num) (by norm_num)⟩

/-- The size that is asked for must be finite, and so must be the number of its characters on a
line. -/
structure Askable (boxWidth : Int) (size : Binary64) : Prop where
  bounded : size ≠ .infinite false
  countable : (lineCapacity boxWidth size).IsFinite

theorem Drawable.fit_infinite (drawable : Drawable boxWidth boxHeight)
    (short : text.length < 2 ^ 64) :
    fit {} text boxWidth boxHeight (some (.real (.infinite false))) = .error .nanToInteger := by
  have provided : provisionalFontSize (some (.real (.infinite false))) boxWidth boxHeight =
      .ok (.infinite false) := provisionalFontSize_of_pos (by decide +kernel)
  have counted := charactersPerLine_infinite drawable
  have optimal := drawable.optimalFontSize_infinite (wrap_ne_nil text 0) (growth_wrap_short short 0)
  refine bind_eq_error.mpr (.inr ⟨_, provided, ?_⟩)
  refine bind_eq_error.mpr (.inr ⟨_, drawable.ofInt_width.1, ?_⟩)
  refine bind_eq_error.mpr (.inr ⟨_, counted, ?_⟩)
  refine bind_eq_error.mpr (.inr ⟨_, optimal, ?_⟩)
  exact bind_eq_error.mpr (.inl (charactersPerLine_nan _))

/-- A size so small that infinitely many of its characters fill a line is refused. -/
theorem Drawable.fit_of_uncountable (drawable : Drawable boxWidth boxHeight) (above : 0 < size)
    (bounded : size ≠ .infinite false) (uncountable : ¬(lineCapacity boxWidth size).IsFinite) :
    fit {} text boxWidth boxHeight (some (.real size)) = .error .infinityToInteger := by
  obtain ⟨value, finite, positive⟩ := Binary64.toRat?_of_pos above bounded
  obtain ⟨width, counted, some⟩ := toRat?_characterWidth finite positive
  obtain ⟨room, roomFinite, -⟩ := drawable.spans_lineWidth.pos
  have unsigned : (lineCapacity boxWidth size).Unsigned :=
    drawable.spans_lineWidth.unsigned.quotient roomFinite counted some
  have refused : TextMetrics.charactersPerLine {} (lineWidth boxWidth) size =
      .error .infinityToInteger := by
    rw [charactersPerLine_of_pos finite positive, unsigned.eq_infinite uncountable]
    rfl
  refine bind_eq_error.mpr (.inr ⟨_, provisionalFontSize_of_pos above, ?_⟩)
  refine bind_eq_error.mpr (.inr ⟨_, drawable.ofInt_width.1, ?_⟩)
  exact bind_eq_error.mpr (.inl refused)

/-- Every text is fitted into every box, and its size is readable, if the size that is asked for is
absent, not above zero or no number, or if it is finite and its characters on a line can be counted.
No other size is fitted. -/
theorem fits_unless_extreme (text : List Char) {asked : Option Binary64}
    (drawable : Drawable boxWidth boxHeight) (short : text.length < 2 ^ 64) :
    ((∀ size ∈ asked, 0 < size → Askable boxWidth size) →
      ∃ layout, fit {} text boxWidth boxHeight (asked.map .real) = .ok layout ∧
        minimumFontSize ≤ layout.fontSize ∧ layout.fontSize ≤ maximumFontSize) ∧
    ∀ size ∈ asked, 0 < size →
      (size = .infinite false →
        fit {} text boxWidth boxHeight (asked.map .real) = .error .nanToInteger) ∧
      (size ≠ .infinite false → ¬(lineCapacity boxWidth size).IsFinite →
        fit {} text boxWidth boxHeight (asked.map .real) = .error .infinityToInteger) := by
  constructor
  · intro askable
    obtain ⟨provisional, value, provided, finite, positive, counted⟩ :
        ∃ provisional value,
          provisionalFontSize (asked.map .real) boxWidth boxHeight = .ok provisional ∧
            provisional.toRat? = some value ∧ 0 < value ∧
              (lineCapacity boxWidth provisional).IsFinite := by
      by_cases unasked : ∀ size ∈ asked, ¬0 < size
      · obtain ⟨size, provided, spans⟩ := drawable.provisionalFontSize_eq_ok unasked
        obtain ⟨value, finite, positive⟩ := spans.pos
        exact ⟨size, value, provided, finite, positive,
          drawable.isFinite_lineCapacity_of_spans spans⟩
      · simp only [not_forall, not_not] at unasked
        obtain ⟨size, rfl, above⟩ := unasked
        obtain ⟨bounded, counted⟩ := askable size rfl above
        obtain ⟨value, finite, positive⟩ := Binary64.toRat?_of_pos above bounded
        exact ⟨size, value, provisionalFontSize_of_pos above, finite, positive, counted⟩
    obtain ⟨layout, fitted⟩ := drawable.fit_of_provisional short provided finite positive counted
    exact ⟨layout, fitted, fontSize_mem_of_fit fitted⟩
  · rintro size rfl above
    constructor
    · rintro rfl
      exact drawable.fit_infinite short
    · exact drawable.fit_of_uncountable above

theorem fits_hugeSize :
    (Drawable 1000 500 ∧ "Hi".toList.length < 2 ^ 64 ∧ Askable 1000 1e300) ∧
      ∃ layout, fit {} "Hi".toList 1000 500 (some (.real 1e300)) = .ok layout ∧
        minimumFontSize ≤ layout.fontSize ∧ layout.fontSize ≤ maximumFontSize := by
  have drawable : Drawable 1000 500 := ⟨by decide +kernel, by decide +kernel⟩
  have short : "Hi".toList.length < 2 ^ 64 := by decide +kernel
  have askable : Askable 1000 1e300 := ⟨by decide +kernel, by decide +kernel⟩
  have fits := @fits_unless_extreme 1000 500 "Hi".toList (some 1e300) drawable short
  refine ⟨⟨drawable, short, askable⟩, fits.1 ?_⟩
  intro size asked _
  cases asked
  exact askable

/-- A size without bounds stops the layout, and so does one near the least of all. -/
theorem refused_extremeSizes :
    sanitize "Hi".toList = "Hi".toList ∧
      fit {} "Hi".toList 1000 500 (some (.real (.infinite false))) = .error .nanToInteger ∧
      fit {} "Hi".toList 1000 500 (some (.real 1e-320)) = .error .infinityToInteger := by
  decide +kernel

end Montage.Caption
