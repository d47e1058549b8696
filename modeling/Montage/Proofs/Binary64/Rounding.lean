import Mathlib
import Montage.Binary64

/-!
# Rounding to binary64 numbers

A positive quotient lies between two neighbouring powers of two, so its significand has the right
number of bits and the parts that rounding gives are canonical. A quotient far below the greatest
power of two is therefore rounded to a finite number.

The numbers of one exponent form a grid, and rounding goes to the nearest point of the grid of a
quotient. The grids of greater quotients are coarser and begin where finer ones end, so rounding
keeps the order of quotients across grids as well.
-/

namespace Montage.Binary64

variable {numerator denominator numerator' denominator' bound : Nat}

/-! ## The nearest integer -/

/-- An integer is nearest to a value, and even where the value lies half-way. -/
structure Nearest (value : ℚ) (integer : Nat) : Prop where
  above : value - 1 / 2 ≤ integer
  below : (integer : ℚ) ≤ value + 1 / 2
  even_above : (integer : ℚ) = value - 1 / 2 → Even integer
  even_below : (integer : ℚ) = value + 1 / 2 → Even integer

theorem nearest_roundQuotient (positive : 0 < denominator) :
    Nearest ((numerator : ℚ) / denominator) (roundQuotient numerator denominator) := by
  have divisor : (0 : ℚ) < denominator := by exact_mod_cast positive
  have value : (numerator : ℚ) / denominator =
      (numerator / denominator : Nat) + ((numerator % denominator : Nat) : ℚ) / denominator := by
    have parts : ((denominator * (numerator / denominator) + numerator % denominator : Nat) : ℚ) =
        numerator := by
      rw [Nat.div_add_mod]
    rw [← parts]
    push_cast
    field_simp
  have less : 2 * (numerator % denominator) < denominator ↔
      ((numerator % denominator : Nat) : ℚ) / denominator < 1 / 2 := by
    rw [div_lt_div_iff₀ divisor two_pos, mul_comm, one_mul]
    exact_mod_cast Iff.rfl
  have more : denominator < 2 * (numerator % denominator) ↔
      1 / 2 < ((numerator % denominator : Nat) : ℚ) / denominator := by
    rw [div_lt_div_iff₀ two_pos divisor, mul_comm _ (2 : ℚ), one_mul]
    exact_mod_cast Iff.rfl
  have nonnegative : 0 ≤ ((numerator % denominator : Nat) : ℚ) / denominator := by positivity
  have below : ((numerator % denominator : Nat) : ℚ) / denominator < 1 := by
    rw [div_lt_one divisor]
    exact_mod_cast Nat.mod_lt _ positive
  rw [value]
  simp only [roundQuotient, less, more]
  generalize ((numerator % denominator : Nat) : ℚ) / denominator = fraction at *
  generalize numerator / denominator = whole
  split
  next low => exact ⟨by linarith, by linarith, fun tie => by linarith, fun tie => by linarith⟩
  next low =>
    split
    next high =>
      constructor
      · push_cast; linarith
      · push_cast; linarith
      · push_cast; intro tie; linarith
      · push_cast; intro tie; linarith
    next high =>
      have half : fraction = 1 / 2 := by linarith
      split
      next even =>
        have even := Nat.even_iff.mpr even
        exact ⟨by linarith, by linarith, fun _ => even, fun _ => even⟩
      next odd =>
        have even : Even (whole + 1) := Nat.even_iff.mpr (by omega)
        exact ⟨by push_cast; linarith, by push_cast; linarith, fun _ => even, fun _ => even⟩

theorem Nearest.mono {low high : ℚ} {first second : Nat} (nearest : Nearest low first)
    (nearest' : Nearest high second) (atMost : low ≤ high) : first ≤ second := by
  by_contra above
  have next : ((second + 1 : Nat) : ℚ) ≤ first := by exact_mod_cast not_le.mp above
  push_cast at next
  have lower := nearest.below
  have upper := nearest'.above
  have even := nearest.even_below (by linarith)
  have even' := nearest'.even_above (by linarith)
  have consecutive : first = second + 1 := by
    have : (first : ℚ) = second + 1 := by linarith
    exact_mod_cast this
  rw [consecutive] at even
  exact (Nat.even_add_one.mp even) even'

/-- The integer nearest to an integer is that integer. -/
theorem Nearest.eq_of_natCast {integer whole : Nat} (nearest : Nearest (whole : ℚ) integer) :
    integer = whole := by
  have above := nearest.above
  have below := nearest.below
  have upper : (integer : ℚ) < (whole + 1 : Nat) := by
    push_cast
    linarith
  have lower : (whole : ℚ) < (integer + 1 : Nat) := by
    push_cast
    linarith
  exact le_antisymm (Nat.lt_succ_iff.mp (by exact_mod_cast upper))
    (Nat.lt_succ_iff.mp (by exact_mod_cast lower))

/-! ## Scaling by a power of two -/

/-- A quotient whose parts are scaled by the two halves of a power of two. -/
theorem scaled_quotient (numerator denominator : Nat) (exponent : Int) :
    ((numerator * powerOfTwo (-exponent).toNat : Nat) : ℚ) /
        ((denominator * powerOfTwo exponent.toNat : Nat) : ℚ) =
      (numerator : ℚ) / denominator / 2 ^ exponent := by
  change ((numerator * 2 ^ (-exponent).toNat : Nat) : ℚ) /
    ((denominator * 2 ^ exponent.toNat : Nat) : ℚ) = _
  push_cast
  obtain ⟨size, rfl | rfl⟩ := exponent.eq_nat_or_neg
  · have none : (-(size : Int)).toNat = 0 := by omega
    rw [none, Int.toNat_natCast, zpow_natCast, pow_zero, mul_one, div_div]
  · have none : (-(size : Int)).toNat = 0 := by omega
    rw [none, neg_neg, Int.toNat_natCast, zpow_neg, zpow_natCast, pow_zero, mul_one, div_inv_eq_mul,
      mul_div_right_comm]

theorem scaled_pos (positive : 0 < denominator) (exponent : Int) :
    0 < denominator * powerOfTwo exponent.toNat :=
  Nat.mul_pos positive (Nat.two_pow_pos _)

theorem le_scaled_iff (positive : 0 < denominator) (exponent : Int) :
    bound * (denominator * powerOfTwo exponent.toNat) ≤ numerator * powerOfTwo (-exponent).toNat ↔
      (bound : ℚ) * 2 ^ exponent ≤ (numerator : ℚ) / denominator := by
  have scaled : (0 : ℚ) < ((denominator * powerOfTwo exponent.toNat : Nat) : ℚ) := by
    exact_mod_cast scaled_pos positive exponent
  rw [← le_div_iff₀ (by positivity), ← scaled_quotient, le_div_iff₀ scaled]
  exact_mod_cast Iff.rfl

/-! ## The leading power of two -/

theorem two_zpow_log2 (positive : 0 < bound) :
    (2 : ℚ) ^ (bound.log2 : Int) ≤ bound ∧ (bound : ℚ) < 2 ^ ((bound.log2 : Int) + 1) := by
  constructor
  · rw [zpow_natCast]
    exact_mod_cast Nat.log2_self_le positive.ne'
  · rw [← Nat.cast_succ, zpow_natCast]
    exact_mod_cast Nat.lt_log2_self

/-- A positive quotient lies between its leading power of two and the next one. -/
theorem binaryExponent_spec (positive : 0 < numerator) (positive' : 0 < denominator) :
    (2 : ℚ) ^ binaryExponent numerator denominator ≤ (numerator : ℚ) / denominator ∧
      (numerator : ℚ) / denominator < 2 ^ (binaryExponent numerator denominator + 1) := by
  obtain ⟨low, high⟩ := two_zpow_log2 positive
  obtain ⟨low', high'⟩ := two_zpow_log2 positive'
  have two : (2 : ℚ) ≠ 0 := two_ne_zero
  have divisor : (0 : ℚ) < denominator := by exact_mod_cast positive'
  set estimate : Int := (numerator.log2 : Int) - (denominator.log2 : Int) with estimateEq
  have above : (numerator : ℚ) / denominator < 2 ^ (estimate + 1) := by
    rw [div_lt_iff₀ divisor]
    calc (numerator : ℚ) < 2 ^ ((numerator.log2 : Int) + 1) := high
      _ = 2 ^ (estimate + 1) * 2 ^ (denominator.log2 : Int) := by
          rw [← zpow_add₀ two, estimateEq]
          ring_nf
      _ ≤ 2 ^ (estimate + 1) * denominator := by gcongr
  have below : (2 : ℚ) ^ (estimate - 1) ≤ (numerator : ℚ) / denominator := by
    rw [le_div_iff₀ divisor]
    calc (2 : ℚ) ^ (estimate - 1) * denominator
        ≤ 2 ^ (estimate - 1) * 2 ^ ((denominator.log2 : Int) + 1) := by gcongr
      _ = 2 ^ (numerator.log2 : Int) := by
          rw [← zpow_add₀ two, estimateEq]
          ring_nf
      _ ≤ numerator := low
  have compared :
      denominator * powerOfTwo estimate.toNat ≤ numerator * powerOfTwo (-estimate).toNat ↔
        (2 : ℚ) ^ estimate ≤ (numerator : ℚ) / denominator := by
    have single := @le_scaled_iff numerator denominator 1 positive' estimate
    rwa [one_mul, Nat.cast_one, one_mul] at single
  simp only [binaryExponent, ← estimateEq]
  split
  next fits => exact ⟨compared.mp fits, above⟩
  next exceeds =>
    rw [compared, not_le] at exceeds
    exact ⟨below, by rwa [sub_add_cancel]⟩

/-- Greater quotients have greater leading powers of two. -/
theorem binaryExponent_mono (positive : 0 < numerator) (positive' : 0 < denominator)
    (more : 0 < numerator') (more' : 0 < denominator')
    (atMost : (numerator : ℚ) / denominator ≤ (numerator' : ℚ) / denominator') :
    binaryExponent numerator denominator ≤ binaryExponent numerator' denominator' := by
  have low := (binaryExponent_spec positive positive').1
  have high := (binaryExponent_spec more more').2
  have powers := (zpow_lt_zpow_iff_right₀ one_lt_two).mp ((low.trans atMost).trans_lt high)
  omega

/-! ## The grid of a quotient -/

/-- The exponent of the numbers among which a quotient is rounded. -/
def gridExponent (numerator denominator : Nat) : Int :=
  max (-1074) (binaryExponent numerator denominator - 52)

/-- The significand that a quotient is rounded to. -/
def gridSignificand (numerator denominator : Nat) : Nat :=
  roundQuotient (numerator * powerOfTwo (-gridExponent numerator denominator).toNat)
    (denominator * powerOfTwo (gridExponent numerator denominator).toNat)

/-- The value that a quotient is rounded to where it does not exceed the range. -/
def gridPoint (numerator denominator : Nat) : ℚ :=
  gridSignificand numerator denominator * 2 ^ gridExponent numerator denominator

theorem powerOfTwo_cast (size : Nat) : ((powerOfTwo size : Nat) : ℚ) = 2 ^ (size : Int) := by
  rw [zpow_natCast]
  exact_mod_cast rfl

theorem nearest_gridSignificand (numerator : Nat) (positive : 0 < denominator) :
    Nearest ((numerator : ℚ) / denominator / 2 ^ gridExponent numerator denominator)
      (gridSignificand numerator denominator) := by
  rw [← scaled_quotient]
  exact nearest_roundQuotient (scaled_pos positive _)

/-- A significand has at most 53 bits, or is the power of two above them. -/
theorem gridSignificand_le (positive : 0 < numerator) (positive' : 0 < denominator) :
    gridSignificand numerator denominator ≤ powerOfTwo 53 := by
  obtain ⟨-, high⟩ := binaryExponent_spec positive positive'
  have exponent : binaryExponent numerator denominator + 1 ≤
      53 + gridExponent numerator denominator := by
    simp only [gridExponent]
    omega
  have small : (numerator : ℚ) / denominator / 2 ^ gridExponent numerator denominator ≤
      2 ^ (53 : Int) := by
    rw [div_le_iff₀ (by positivity), ← zpow_add₀ two_ne_zero]
    exact high.le.trans (zpow_le_zpow_right₀ one_le_two exponent)
  have rounded := (nearest_gridSignificand numerator positive').below
  have limited : (gridSignificand numerator denominator : ℚ) < (powerOfTwo 53 + 1 : Nat) := by
    rw [Nat.cast_add, powerOfTwo_cast, Nat.cast_one]
    push_cast
    linarith
  exact Nat.lt_succ_iff.mp (by exact_mod_cast limited)

/-- Above the least exponent a significand uses all 53 bits. -/
theorem le_gridSignificand (positive : 0 < numerator) (positive' : 0 < denominator)
    (above : gridExponent numerator denominator ≠ -1074) :
    powerOfTwo 52 ≤ gridSignificand numerator denominator := by
  obtain ⟨low, -⟩ := binaryExponent_spec positive positive'
  have exponent : 52 + gridExponent numerator denominator ≤
      binaryExponent numerator denominator := by
    simp only [gridExponent] at above ⊢
    omega
  have large : 2 ^ (52 : Int) ≤
      (numerator : ℚ) / denominator / 2 ^ gridExponent numerator denominator := by
    rw [le_div_iff₀ (by positivity), ← zpow_add₀ two_ne_zero]
    exact (zpow_le_zpow_right₀ one_le_two exponent).trans low
  have rounded := (nearest_gridSignificand numerator positive').above
  have limited :
      ((powerOfTwo 52 : Nat) : ℚ) < (gridSignificand numerator denominator + 1 : Nat) := by
    rw [powerOfTwo_cast]
    push_cast
    linarith
  exact Nat.lt_succ_iff.mp (by exact_mod_cast limited)

/-- Parts that are canonical but for the greatest exponent make a number of that value, or an
infinity if the value is beyond the range. -/
theorem assemble_cases (negative : Bool) {significand : Nat} {exponent : Int}
    (atMost : significand < powerOfTwo 53) (least : -1074 ≤ exponent)
    (full : exponent = -1074 ∨ powerOfTwo 52 ≤ significand) :
    ((significand : ℚ) * 2 ^ exponent < 2 ^ (1024 : Int) ∧
      ∃ canonical, assemble negative significand exponent =
        .finite negative significand exponent canonical) ∨
      2 ^ (1024 : Int) ≤ (significand : ℚ) * 2 ^ exponent ∧
        assemble negative significand exponent = .infinite negative := by
  by_cases inRange : exponent ≤ 971
  · have canonical : Canonical significand exponent := ⟨atMost, least, inRange, full⟩
    refine .inl ⟨?_, canonical, by rw [assemble, dif_pos canonical]⟩
    have small : (significand : ℚ) < (powerOfTwo 53 : Nat) := by exact_mod_cast atMost
    rw [powerOfTwo_cast] at small
    calc (significand : ℚ) * 2 ^ exponent < 2 ^ ((53 : Nat) : Int) * 2 ^ exponent := by gcongr
      _ = 2 ^ ((53 : Nat) + exponent) := (zpow_add₀ two_ne_zero _ _).symm
      _ ≤ 2 ^ (1024 : Int) := zpow_le_zpow_right₀ one_le_two (by omega)
  · have oversized : ¬Canonical significand exponent := fun canonical => inRange canonical.2.2.1
    refine .inr ⟨?_, by rw [assemble, dif_neg oversized]⟩
    have large : ((powerOfTwo 52 : Nat) : ℚ) ≤ significand := by
      exact_mod_cast full.resolve_left (by omega)
    rw [powerOfTwo_cast] at large
    calc (2 : ℚ) ^ (1024 : Int) ≤ 2 ^ ((52 : Nat) + exponent) :=
          zpow_le_zpow_right₀ one_le_two (by omega)
      _ = 2 ^ ((52 : Nat) : Int) * 2 ^ exponent := zpow_add₀ two_ne_zero _ _
      _ ≤ significand * 2 ^ exponent := by gcongr

theorem ofQuotient_eq (negative : Bool) (numerator denominator : Nat) :
    ofQuotient negative numerator denominator =
      if gridSignificand numerator denominator = powerOfTwo 53 then
        assemble negative (powerOfTwo 52) (gridExponent numerator denominator + 1)
      else
        assemble negative (gridSignificand numerator denominator)
          (gridExponent numerator denominator) := rfl

/-- A positive quotient is rounded to its grid point, or to an infinity beyond the range. -/
theorem ofQuotient_cases (negative : Bool) (positive : 0 < numerator)
    (positive' : 0 < denominator) :
    (gridPoint numerator denominator < 2 ^ (1024 : Int) ∧
      ∃ significand exponent canonical,
        ofQuotient negative numerator denominator =
            .finite negative significand exponent canonical ∧
          (significand : ℚ) * 2 ^ exponent = gridPoint numerator denominator) ∨
      2 ^ (1024 : Int) ≤ gridPoint numerator denominator ∧
        ofQuotient negative numerator denominator = .infinite negative := by
  have atMost := gridSignificand_le positive positive'
  have full := le_gridSignificand positive positive'
  have least : -1074 ≤ gridExponent numerator denominator := le_max_left _ _
  rw [ofQuotient_eq, gridPoint]
  generalize gridSignificand numerator denominator = significand at atMost full ⊢
  generalize gridExponent numerator denominator = exponent at full least ⊢
  split
  next carried =>
    -- The significand has one bit too many; half of it at the next exponent is the same value.
    have same : ((powerOfTwo 52 : Nat) : ℚ) * 2 ^ (exponent + 1) = significand * 2 ^ exponent := by
      rw [carried, powerOfTwo_cast, powerOfTwo_cast, ← zpow_add₀ two_ne_zero,
        ← zpow_add₀ two_ne_zero]
      congr 1
      push_cast
      ring
    have below : powerOfTwo 52 < powerOfTwo 53 := by decide
    have least' : -1074 ≤ exponent + 1 := by omega
    have cases := assemble_cases negative below least' (.inr le_rfl)
    rw [same] at cases
    exact cases.imp_left fun ⟨small, canonical, equal⟩ => ⟨small, _, _, canonical, equal, same⟩
  next whole =>
    have cases := assemble_cases negative (lt_of_le_of_ne atMost whole) least
      (or_iff_not_imp_left.mpr full)
    exact cases.imp_left fun ⟨small, canonical, equal⟩ => ⟨small, _, _, canonical, equal, rfl⟩

theorem gridPoint_nonneg (numerator denominator : Nat) : 0 ≤ gridPoint numerator denominator := by
  rw [gridPoint]
  positivity

/-- A positive number of at most so many binary places is rounded to one of as many places. -/
theorem gridPoint_le {places : Nat} (positive : 0 < numerator) (positive' : 0 < denominator)
    (small : (numerator : ℚ) / denominator < 2 ^ (places : Int)) :
    gridPoint numerator denominator ≤ 2 ^ (places : Int) := by
  obtain ⟨low, -⟩ := binaryExponent_spec positive positive'
  have leading : binaryExponent numerator denominator < places :=
    (zpow_lt_zpow_iff_right₀ one_lt_two).mp (low.trans_lt small)
  have atMost : (gridSignificand numerator denominator : ℚ) ≤ (powerOfTwo 53 : Nat) := by
    exact_mod_cast gridSignificand_le positive positive'
  rw [powerOfTwo_cast] at atMost
  calc gridPoint numerator denominator
      ≤ 2 ^ ((53 : Nat) : Int) * 2 ^ gridExponent numerator denominator := by
        rw [gridPoint]
        gcongr
    _ = 2 ^ ((53 : Nat) + gridExponent numerator denominator) := (zpow_add₀ two_ne_zero _ _).symm
    _ ≤ 2 ^ (places : Int) := zpow_le_zpow_right₀ one_le_two (by simp only [gridExponent]; omega)

/-- Rounding keeps the order of quotients. -/
theorem gridPoint_mono (positive : 0 < numerator) (positive' : 0 < denominator)
    (more : 0 < numerator') (more' : 0 < denominator')
    (atMost : (numerator : ℚ) / denominator ≤ (numerator' : ℚ) / denominator') :
    gridPoint numerator denominator ≤ gridPoint numerator' denominator' := by
  have exponents : gridExponent numerator denominator ≤ gridExponent numerator' denominator' :=
    max_le_max_left _ (sub_le_sub_right
      (binaryExponent_mono positive positive' more more' atMost) 52)
  rcases exponents.lt_or_eq with finer | same
  · -- The greatest point of the finer grid is the least one of the next grid above it.
    have lower : (gridSignificand numerator denominator : ℚ) ≤ (powerOfTwo 53 : Nat) := by
      exact_mod_cast gridSignificand_le positive positive'
    have upper : ((powerOfTwo 52 : Nat) : ℚ) ≤ gridSignificand numerator' denominator' := by
      have least : -1074 ≤ gridExponent numerator denominator := le_max_left _ _
      exact_mod_cast le_gridSignificand more more' (by omega)
    rw [powerOfTwo_cast] at lower upper
    calc gridPoint numerator denominator
        ≤ 2 ^ ((53 : Nat) : Int) * 2 ^ gridExponent numerator denominator := by
          rw [gridPoint]
          gcongr
      _ = 2 ^ ((53 : Nat) + gridExponent numerator denominator) := (zpow_add₀ two_ne_zero _ _).symm
      _ ≤ 2 ^ ((52 : Nat) + gridExponent numerator' denominator') :=
          zpow_le_zpow_right₀ one_le_two (by omega)
      _ = 2 ^ ((52 : Nat) : Int) * 2 ^ gridExponent numerator' denominator' :=
          zpow_add₀ two_ne_zero _ _
      _ ≤ gridPoint numerator' denominator' := by
          rw [gridPoint]
          gcongr
  · have nearest := nearest_gridSignificand numerator positive'
    have nearest' := nearest_gridSignificand numerator' more'
    rw [gridPoint, gridPoint, ← same]
    rw [← same] at nearest'
    have significands := nearest.mono nearest' (by gcongr)
    gcongr

/-- Rounding changes a quotient by at most half a unit in its last place. -/
theorem abs_gridPoint_sub_le (positive : 0 < numerator) (positive' : 0 < denominator) :
    |gridPoint numerator denominator - (numerator : ℚ) / denominator| ≤
      (numerator : ℚ) / denominator / 2 ^ (53 : Int) + 2 ^ (-1075 : Int) := by
  obtain ⟨low, -⟩ := binaryExponent_spec positive positive'
  have nearest := nearest_gridSignificand numerator positive'
  have unit : (2 : ℚ) ^ (gridExponent numerator denominator - 1) ≤
      (numerator : ℚ) / denominator / 2 ^ (53 : Int) + 2 ^ (-1075 : Int) := by
    rcases max_choice (-1074) (binaryExponent numerator denominator - 52) with least | leading
    · rw [gridExponent, least]
      exact le_add_of_nonneg_left (by positivity)
    · rw [gridExponent, leading]
      refine le_add_of_le_of_nonneg ?_ (by positivity)
      rw [le_div_iff₀ (by positivity), ← zpow_add₀ two_ne_zero]
      exact le_of_eq_of_le (by congr 1; ring) low
  refine le_trans ?_ unit
  have power : (0 : ℚ) < 2 ^ gridExponent numerator denominator := by positivity
  have half : (2 : ℚ) ^ (gridExponent numerator denominator - 1) =
      1 / 2 * 2 ^ gridExponent numerator denominator := by
    rw [zpow_sub_one₀ two_ne_zero]
    ring
  have scaled : (numerator : ℚ) / denominator =
      (numerator : ℚ) / denominator / 2 ^ gridExponent numerator denominator *
        2 ^ gridExponent numerator denominator := (div_mul_cancel₀ _ power.ne').symm
  rw [half, gridPoint, scaled, ← sub_mul, abs_mul, abs_of_pos power]
  gcongr
  rw [abs_sub_le_iff]
  exact ⟨by linarith [nearest.below], by linarith [nearest.above]⟩

/-! ## Rationals -/

/-- The magnitude of a rational is the quotient of its parts. -/
theorem natAbs_num_div_den_eq_abs (value : ℚ) :
    ((value.num.natAbs : Nat) : ℚ) / value.den = |value| := by
  rw [Nat.cast_natAbs, Int.cast_abs, ← Nat.abs_cast value.den, ← abs_div, Rat.num_div_den]

theorem natAbs_num_div_den {value : ℚ} (positive : 0 < value) :
    ((value.num.natAbs : Nat) : ℚ) / value.den = value :=
  (natAbs_num_div_den_eq_abs value).trans (abs_of_pos positive)

theorem natAbs_num_pos {value : ℚ} (positive : 0 < value) : 0 < value.num.natAbs :=
  Int.natAbs_pos.mpr (Rat.num_ne_zero.mpr positive.ne')

/-- The value that a rational is rounded to where that does not exceed the range. The sign is left
out. -/
def rounded (value : ℚ) : ℚ :=
  gridPoint value.num.natAbs value.den

theorem rounded_nonneg (value : ℚ) : 0 ≤ rounded value :=
  gridPoint_nonneg _ _

@[simp] theorem rounded_zero : rounded 0 = 0 := by
  simp [rounded, gridPoint, gridSignificand, roundQuotient]

theorem rounded_mono {low high : ℚ} (nonnegative : 0 ≤ low) (atMost : low ≤ high) :
    rounded low ≤ rounded high := by
  rcases nonnegative.eq_or_lt with rfl | positive
  · rw [rounded_zero]
    exact rounded_nonneg high
  · have positive' := positive.trans_le atMost
    refine gridPoint_mono (natAbs_num_pos positive) low.den_pos (natAbs_num_pos positive')
      high.den_pos ?_
    rwa [natAbs_num_div_den positive, natAbs_num_div_den positive']

/-- Rounding to the nearest number is off by half a unit in the last place, and by half the least
number where that is more. -/
theorem abs_rounded_sub_le {value : ℚ} (nonnegative : 0 ≤ value) :
    |rounded value - value| ≤ value / 2 ^ (53 : Int) + 2 ^ (-1075 : Int) := by
  rcases nonnegative.eq_or_lt with rfl | positive
  · rw [rounded_zero, sub_zero, abs_zero]
    positivity
  · have near := abs_gridPoint_sub_le (natAbs_num_pos positive) value.den_pos
    rwa [natAbs_num_div_den positive] at near

/-- A rational that is not negative becomes the number of its rounded value, or an infinity. -/
theorem ofRat_cases {value : ℚ} (nonnegative : 0 ≤ value) (zeroNegative : Bool) :
    (rounded value < 2 ^ (1024 : Int) ∧
      (ofRat value zeroNegative).toRat? = some (rounded value)) ∨
      2 ^ (1024 : Int) ≤ rounded value ∧ ofRat value zeroNegative = .infinite false := by
  rcases nonnegative.eq_or_lt with rfl | positive
  · refine .inl ⟨by rw [rounded_zero]; positivity, ?_⟩
    rw [rounded_zero, ofRat, if_pos rfl]
    simp [zero, toRat?]
  · have sign : decide (value < 0) = false := decide_eq_false positive.not_gt
    rw [ofRat, if_neg positive.ne', sign]
    refine (ofQuotient_cases false (natAbs_num_pos positive) value.den_pos).imp_left ?_
    rintro ⟨small, significand, exponent, canonical, equal, same⟩
    exact ⟨small, by rw [equal, toRat?]; exact congrArg some same⟩

/-! ## Arithmetic of finite numbers -/

section Arithmetic

variable {left right : Binary64} {value value' : ℚ}

/-- Only finite numbers have values. -/
theorem exists_eq_finite (equal : left.toRat? = some value) :
    ∃ negative significand exponent canonical,
      left = .finite negative significand exponent canonical := by
  cases left with
  | nan => simp [toRat?] at equal
  | infinite => simp [toRat?] at equal
  | finite negative significand exponent canonical => exact ⟨_, _, _, canonical, rfl⟩

/-- The sum of finite numbers is the exact sum, rounded once. -/
theorem add_of_toRat? (equal : left.toRat? = some value) (equal' : right.toRat? = some value') :
    left + right = ofRat (value + value') (left.isNegative && right.isNegative) := by
  obtain ⟨_, _, _, _, rfl⟩ := exists_eq_finite equal
  obtain ⟨_, _, _, _, rfl⟩ := exists_eq_finite equal'
  change add _ _ = _
  simp only [add, equal, equal', Option.getD_some]

/-- The product of finite numbers is the exact product, rounded once. -/
theorem mul_of_toRat? (equal : left.toRat? = some value) (equal' : right.toRat? = some value') :
    left * right = ofRat (value * value') (left.isNegative != right.isNegative) := by
  obtain ⟨_, _, _, _, rfl⟩ := exists_eq_finite equal
  obtain ⟨_, _, _, _, rfl⟩ := exists_eq_finite equal'
  change mul _ _ = _
  simp only [mul, equal, equal', Option.getD_some]

/-- The quotient of finite numbers is the exact quotient, rounded once. -/
theorem quotient_of_toRat? (equal : left.toRat? = some value)
    (equal' : right.toRat? = some value') :
    left.quotient right = ofRat (value / value') (left.isNegative != right.isNegative) := by
  obtain ⟨_, _, _, _, rfl⟩ := exists_eq_finite equal
  obtain ⟨_, _, _, _, rfl⟩ := exists_eq_finite equal'
  simp only [quotient, equal, equal', Option.getD_some]

end Arithmetic

/-! ## Finite results -/

/-- A finite number that is not negative and has at most so many binary places before the
point. -/
def Within (places : Nat) (number : Binary64) : Prop :=
  ∃ value, number.toRat? = some value ∧ 0 ≤ value ∧ value ≤ 2 ^ (places : Int)

theorem within_ofRat {value : ℚ} {places : Nat} (limited : places ≤ 1000) (nonnegative : 0 ≤ value)
    (small : value < 2 ^ (places : Int)) (zeroNegative : Bool) :
    (ofRat value zeroNegative).Within places := by
  have bounded : rounded value ≤ 2 ^ (places : Int) := by
    rcases nonnegative.eq_or_lt with rfl | positive
    · rw [rounded_zero]
      positivity
    · refine gridPoint_le (natAbs_num_pos positive) value.den_pos ?_
      rwa [natAbs_num_div_den positive]
  have inRange : (2 : ℚ) ^ (places : Int) < 2 ^ (1024 : Int) :=
    zpow_lt_zpow_right₀ one_lt_two (by omega)
  rcases ofRat_cases nonnegative zeroNegative with ⟨-, equal⟩ | ⟨oversized, -⟩
  · exact ⟨_, equal, rounded_nonneg value, bounded⟩
  · exact absurd (bounded.trans_lt inRange) oversized.not_gt

theorem within_ofNat {value places : Nat} (limited : places ≤ 1000) (small : value < 2 ^ places) :
    (ofNat value).Within places := by
  refine within_ofRat limited (Nat.cast_nonneg value) ?_ false
  rw [zpow_natCast]
  exact_mod_cast small

namespace Within

variable {left right : Binary64} {places : Nat}

theorem ne_nan (within : left.Within places) : left ≠ .nan := by
  obtain ⟨value, equal, -⟩ := within
  rintro rfl
  simp [toRat?] at equal

/-- A sum has at most one place more, and one for the rounding. -/
theorem add (within : left.Within places) (within' : right.Within places)
    (limited : places + 2 ≤ 1000) : (left + right).Within (places + 2) := by
  obtain ⟨value, equal, nonnegative, atMost⟩ := within
  obtain ⟨value', equal', nonnegative', atMost'⟩ := within'
  rw [add_of_toRat? equal equal']
  refine within_ofRat limited (add_nonneg nonnegative nonnegative') ?_ _
  have power : (0 : ℚ) < 2 ^ (places : Int) := by positivity
  have four : (2 : ℚ) ^ (2 : Int) = 4 := by norm_num
  calc value + value' ≤ 2 * 2 ^ (places : Int) := by linarith
    _ < 2 ^ (places : Int) * 2 ^ (2 : Int) := by rw [four]; linarith
    _ = 2 ^ ((places + 2 : Nat) : Int) := by rw [← zpow_add₀ two_ne_zero]; norm_cast

/-- A quotient by a number that is not less than one has one place more, for the rounding. -/
theorem quotient {value' : ℚ} (within : left.Within places) (divisor : right.toRat? = some value')
    (atLeast : 1 ≤ value') (limited : places + 1 ≤ 1000) :
    (left.quotient right).Within (places + 1) := by
  obtain ⟨value, equal, nonnegative, atMost⟩ := within
  rw [quotient_of_toRat? equal divisor]
  refine within_ofRat limited (by positivity) ?_ _
  have power : (0 : ℚ) < 2 ^ (places : Int) := by positivity
  calc value / value' ≤ value := div_le_self nonnegative atLeast
    _ < 2 ^ (places : Int) * 2 ^ (1 : Int) := by rw [zpow_one]; linarith
    _ = 2 ^ ((places + 1 : Nat) : Int) := by rw [← zpow_add₀ two_ne_zero]; norm_cast

end Within

end Montage.Binary64
