import Montage.Proofs.Binary64.Order
import Montage.Proofs.Binary64.Rounding

/-!
# Arithmetic of binary64 numbers

Rounding always gives a number, and so do quotients and products of finite numbers. Among the
numbers whose sign bit is not set, rounding, division by a positive number and multiplication by
one keep the order, and the order tells all numbers apart. A value of few enough bits needs no
rounding, so no value below it is rounded beyond it.
-/

namespace Montage.Binary64

/-- A number whose sign bit is not set: a positive number, the zero without a sign or the infinity
above all numbers. -/
structure Unsigned (number : Binary64) : Prop where
  sign : number.isNegative = false
  number : number ≠ .nan

variable {first second factor divisor : Binary64} {low high value : ℚ}

/-! ## Results that are numbers -/

theorem ofRat_ne_nan (value : ℚ) (zeroNegative : Bool) : ofRat value zeroNegative ≠ .nan := by
  simp only [ofRat, ofQuotient, assemble, zero]
  split
  · simp
  · split
    all_goals split <;> simp

/-- The quotient of two integers, where it is not refused. -/
theorem of_ofIntQuotient {numerator denominator : Int}
    (divided : ofIntQuotient numerator denominator = .ok first) :
    first = ofRat ((numerator : ℚ) / denominator) (denominator < 0) ∧ first.IsFinite := by
  simp only [ofIntQuotient] at divided
  split at divided
  next => cases divided
  next =>
    split at divided
    next => cases divided
    next within =>
      cases divided
      refine ⟨rfl, ?_⟩
      cases equal : ofRat ((numerator : ℚ) / denominator) (denominator < 0) with
      | nan => exact absurd equal (ofRat_ne_nan _ _)
      | infinite negative => exact absurd equal (within negative)
      | finite => rfl

theorem ofIntQuotient_ne_nan {numerator denominator : Int}
    (divided : ofIntQuotient numerator denominator = .ok first) : first ≠ .nan := by
  rw [(of_ofIntQuotient divided).1]
  exact ofRat_ne_nan _ _

/-- A finite number has a quotient by every number. -/
theorem quotient_ne_nan (finite : first.toRat? = some value) (number : second ≠ .nan) :
    first.quotient second ≠ .nan := by
  cases first with
  | nan => simp [toRat?] at finite
  | infinite => simp [toRat?] at finite
  | finite =>
      cases second with
      | nan => exact absurd rfl number
      | infinite => simp [quotient, zero]
      | finite => exact ofRat_ne_nan _ _

/-- A number has a product with every finite number that is not zero. -/
theorem mul_ne_nan (number : first ≠ .nan) (finite : second.toRat? = some value)
    (nonzero : second.isZero = false) : first * second ≠ .nan := by
  change first.mul second ≠ .nan
  cases second with
  | nan => simp [toRat?] at finite
  | infinite => simp [toRat?] at finite
  | finite =>
      cases first with
      | nan => exact absurd rfl number
      | infinite => simp [mul, nonzero]
      | finite => exact ofRat_ne_nan _ _

theorem least_le (number : first ≠ .nan) (number' : second ≠ .nan) :
    first.least second ≤ second := by
  simp only [least]
  split
  next => exact le_self number'
  next unordered => exact le_of_not_lt number' number unordered

/-- The lesser of two numbers is a number. -/
theorem least_ne_nan (number : first ≠ .nan) (number' : second ≠ .nan) :
    first.least second ≠ .nan := by
  rw [least]
  split
  · exact number'
  · exact number

theorem le_greatest (number : first ≠ .nan) (number' : second ≠ .nan) :
    second ≤ first.greatest second := by
  rw [greatest]
  split
  next => exact le_self number'
  next unordered => exact le_of_not_lt number number' unordered

/-- A number that is raised to one limit and lowered to another lies between them. -/
theorem clamp_mem {low high : Binary64} (number : first ≠ .nan) (ordered : low ≤ high) :
    low ≤ (first.greatest low).least high ∧ (first.greatest low).least high ≤ high := by
  obtain ⟨lowNumber, highNumber⟩ := ne_nan_of_le ordered
  have raised := le_greatest number lowNumber
  constructor
  · rw [least]
    split
    · exact ordered
    · exact raised
  · exact least_le (ne_nan_of_le raised).2 highNumber

/-! ## Forms of numbers -/

/-- Each value has one canonical form. -/
theorem canonical_unique {significand significand' : Nat} {exponent exponent' : Int}
    (canonical : Canonical significand exponent) (canonical' : Canonical significand' exponent')
    (atMost : exponent ≤ exponent')
    (equal : (significand : ℚ) * 2 ^ exponent = significand' * 2 ^ exponent') :
    significand = significand' ∧ exponent = exponent' := by
  rcases atMost.lt_or_eq with finer | rfl
  · -- The coarser form uses all bits, so the finer one would need one bit more.
    have full : powerOfTwo 52 ≤ significand' :=
      canonical'.2.2.2.resolve_left (by have := canonical.2.1; omega)
    have lower : ((powerOfTwo 52 : Nat) : ℚ) ≤ significand' := by exact_mod_cast full
    have upper : (significand : ℚ) < (powerOfTwo 53 : Nat) := by exact_mod_cast canonical.1
    rw [powerOfTwo_cast] at lower upper
    have exceeds : (2 : ℚ) ^ ((53 : Nat) : Int) * 2 ^ exponent ≤ significand * 2 ^ exponent := by
      calc (2 : ℚ) ^ ((53 : Nat) : Int) * 2 ^ exponent
          = 2 ^ ((53 : Nat) + exponent) := (zpow_add₀ two_ne_zero _ _).symm
        _ ≤ 2 ^ ((52 : Nat) + exponent') := zpow_le_zpow_right₀ one_le_two (by omega)
        _ = 2 ^ ((52 : Nat) : Int) * 2 ^ exponent' := zpow_add₀ two_ne_zero _ _
        _ ≤ significand' * 2 ^ exponent' := by gcongr
        _ = significand * 2 ^ exponent := equal.symm
    exact absurd (le_of_mul_le_mul_right exceeds (by positivity)) upper.not_ge
  · have power : (2 : ℚ) ^ exponent ≠ 0 := by positivity
    exact ⟨by exact_mod_cast mul_right_cancel₀ power equal, rfl⟩

namespace Unsigned

/-- A finite number without a sign has a value that is not negative. -/
theorem nonneg (unsigned : first.Unsigned) (finite : first.toRat? = some value) : 0 ≤ value := by
  obtain ⟨negative, significand, exponent, canonical, rfl⟩ := exists_eq_finite finite
  cases unsigned.sign
  cases finite
  change 0 ≤ (significand : ℚ) * 2 ^ exponent
  positivity

/-- Of numbers without a sign each has a rank of its own. -/
theorem eq_of_rank? (unsigned : first.Unsigned) (unsigned' : second.Unsigned)
    (same : first.rank? = second.rank?) : first = second := by
  cases first with
  | nan => exact absurd rfl unsigned.number
  | infinite negative =>
      cases unsigned.sign
      cases second with
      | nan => exact absurd rfl unsigned'.number
      | infinite negative' =>
          cases unsigned'.sign
          rfl
      | finite => simp [rank?, toRat?] at same
  | finite negative significand exponent canonical =>
      cases unsigned.sign
      cases second with
      | nan => exact absurd rfl unsigned'.number
      | infinite negative' =>
          cases unsigned'.sign
          simp [rank?, toRat?, eq_comm] at same
      | finite negative' significand' exponent' canonical' =>
          cases unsigned'.sign
          have equal : (significand : ℚ) * 2 ^ exponent = significand' * 2 ^ exponent' := by
            simpa [rank?, toRat?] using same
          rcases le_total exponent exponent' with finer | coarser
          · obtain ⟨rfl, rfl⟩ := canonical_unique canonical canonical' finer equal
            rfl
          · obtain ⟨rfl, rfl⟩ := canonical_unique canonical' canonical coarser equal.symm
            rfl

/-- Numbers without a sign are equal if each is at most the other. -/
theorem antisymm (unsigned : first.Unsigned) (unsigned' : second.Unsigned)
    (atMost : first ≤ second) (atLeast : second ≤ first) : first = second := by
  obtain ⟨low, lowRank, high, highRank, atMost⟩ := le_iff_rank?.mp atMost
  obtain ⟨high', highRank', low', lowRank', atLeast⟩ := le_iff_rank?.mp atLeast
  cases Option.mem_unique lowRank lowRank'
  cases Option.mem_unique highRank highRank'
  cases le_antisymm atMost atLeast
  exact unsigned.eq_of_rank? unsigned' (lowRank.trans highRank.symm)

end Unsigned

/-! ## Rounding -/

theorem isNegative_ofQuotient (negative : Bool) (numerator denominator : Nat) :
    (ofQuotient negative numerator denominator).isNegative = negative := by
  have sign (significand : Nat) (exponent : Int) :
      (assemble negative significand exponent).isNegative = negative := by
    rw [assemble]
    split <;> rfl
  rw [ofQuotient_eq]
  split
  · exact sign _ _
  · exact sign _ _

theorem unsigned_ofRat (nonnegative : 0 ≤ value) : (ofRat value false).Unsigned := by
  constructor
  · rw [ofRat]
    split
    · rfl
    · rw [isNegative_ofQuotient]
      simpa using nonnegative
  · exact ofRat_ne_nan value false

/-- The rank of a rounded rational: that of its rounded value, or the end above all values. -/
theorem rank?_ofRat (nonnegative : 0 ≤ value) :
    (ofRat value false).rank? =
      some (if rounded value < 2 ^ (1024 : Int) then Rank.ofRat (rounded value) else ⊤) := by
  rcases ofRat_cases nonnegative false with ⟨small, finite⟩ | ⟨large, infinite⟩
  · rw [if_pos small]
    exact rank?_of_toRat? finite
  · rw [infinite, if_neg large.not_gt]
    rfl

/-- Rounding keeps the order. -/
theorem ofRat_le_ofRat (nonnegative : 0 ≤ low) (atMost : low ≤ high) :
    ofRat low false ≤ ofRat high false := by
  have rounded := rounded_mono nonnegative atMost
  refine le_iff_rank?.mpr
    ⟨_, rank?_ofRat nonnegative, _, rank?_ofRat (nonnegative.trans atMost), ?_⟩
  split
  next small =>
    split
    next small' => exact Rank.ofRat_le_ofRat.mpr rounded
    next large => exact le_top
  next large => rw [if_neg fun small => large (rounded.trans_lt small)]

/-! ## Numbers that need no rounding -/

section Exact

variable {numerator denominator significand : Nat} {exponent : Int} {number : Binary64}

/-- A value of at most 53 bits is a point of the grid that it is rounded to. -/
theorem gridPoint_of_bits (bits : significand < powerOfTwo 53) (least : -1074 ≤ exponent)
    (positive : 0 < numerator) (positive' : 0 < denominator)
    (equal : (numerator : ℚ) / denominator = significand * 2 ^ exponent) :
    gridPoint numerator denominator = significand * 2 ^ exponent := by
  obtain ⟨low, -⟩ := binaryExponent_spec positive positive'
  have bits : (significand : ℚ) < (powerOfTwo 53 : Nat) := by exact_mod_cast bits
  rw [powerOfTwo_cast] at bits
  have below : (2 : ℚ) ^ binaryExponent numerator denominator < 2 ^ ((53 : Nat) + exponent) := by
    calc (2 : ℚ) ^ binaryExponent numerator denominator
        ≤ significand * 2 ^ exponent := equal ▸ low
      _ < 2 ^ ((53 : Nat) : Int) * 2 ^ exponent := by gcongr
      _ = 2 ^ ((53 : Nat) + exponent) := (zpow_add₀ two_ne_zero _ _).symm
  have leading := (zpow_lt_zpow_iff_right₀ one_lt_two).mp below
  have finer : gridExponent numerator denominator ≤ exponent := by
    rw [gridExponent]
    omega
  -- On its grid the value is a whole number of steps, which no other number is nearer to.
  obtain ⟨places, apart⟩ := Int.eq_ofNat_of_zero_le (sub_nonneg.mpr finer)
  have whole : (numerator : ℚ) / denominator / 2 ^ gridExponent numerator denominator =
      (significand * 2 ^ places : Nat) := by
    rw [equal, mul_div_assoc, ← zpow_sub₀ two_ne_zero, apart]
    push_cast
    rw [zpow_natCast]
  have nearest := nearest_gridSignificand numerator positive'
  rw [whole] at nearest
  rw [gridPoint, nearest.eq_of_natCast, ← whole, equal, div_mul_cancel₀ _ (by positivity)]

/-- Rounding leaves a value of at most 53 bits as it is. -/
theorem rounded_of_bits (bits : significand < powerOfTwo 53) (least : -1074 ≤ exponent)
    (equal : value = significand * 2 ^ exponent) : rounded value = value := by
  have nonnegative : 0 ≤ value := by
    rw [equal]
    positivity
  rcases nonnegative.eq_or_lt with rfl | positive
  · exact rounded_zero
  · rw [← natAbs_num_div_den positive] at equal
    rw [rounded, gridPoint_of_bits bits least (natAbs_num_pos positive) value.den_pos equal,
      ← equal, natAbs_num_div_den positive]

/-- Rounding never leaves the range between zero and a value that it keeps. -/
theorem toRat?_ofRat_mem {bound : ℚ} (nonnegative : 0 ≤ value) (atMost : value ≤ bound)
    (kept : rounded bound = bound) (inRange : bound < 2 ^ (1024 : Int)) (zeroNegative : Bool) :
    ∃ result, (ofRat value zeroNegative).toRat? = some result ∧ 0 ≤ result ∧ result ≤ bound := by
  have below : rounded value ≤ bound := (rounded_mono nonnegative atMost).trans_eq kept
  rcases ofRat_cases nonnegative zeroNegative with ⟨-, finite⟩ | ⟨large, -⟩
  · exact ⟨_, finite, rounded_nonneg value, below⟩
  · exact absurd (large.trans below) inRange.not_ge

/-- An integer of at most 53 bits that is not negative is a binary64 number. -/
theorem ofInt_of_bits {whole : Int} (nonnegative : 0 ≤ whole) (bits : whole < powerOfTwo 53) :
    ∃ number, ofInt whole = .ok number ∧ number.toRat? = some (whole : ℚ) := by
  obtain ⟨size, rfl⟩ := Int.eq_ofNat_of_zero_le nonnegative
  have bits : size < powerOfTwo 53 := by exact_mod_cast bits
  have small : (size : ℚ) < 2 ^ (1024 : Int) := by
    calc (size : ℚ) < (powerOfTwo 53 : Nat) := by exact_mod_cast bits
      _ = 2 ^ ((53 : Nat) : Int) := powerOfTwo_cast 53
      _ < 2 ^ (1024 : Int) := zpow_lt_zpow_right₀ one_lt_two (by norm_num)
  have kept : rounded (size : ℚ) = size :=
    rounded_of_bits bits (show (-1074 : Int) ≤ 0 by decide) (by rw [zpow_zero, mul_one])
  rw [Int.cast_natCast]
  rcases ofRat_cases (Nat.cast_nonneg size) false with ⟨-, finite⟩ | ⟨large, -⟩
  · rw [kept] at finite
    refine ⟨_, ?_, finite⟩
    obtain ⟨_, _, _, _, equal⟩ := exists_eq_finite finite
    rw [ofInt, Int.cast_natCast, equal]
  · exact absurd (large.trans_eq kept) small.not_ge

/-- The floor of a finite number is that of its value. -/
theorem floor_of_toRat? (finite : number.toRat? = some value) : number.floor = .ok ⌊value⌋ := by
  obtain ⟨_, _, _, _, rfl⟩ := exists_eq_finite finite
  simp only [floor, toIntBy, finite, Option.getD_some]
  rfl

/-- A number is what its own value is rounded to. -/
theorem ofRat_of_toRat? (finite : number.toRat? = some value) :
    ofRat value number.isNegative = number := by
  obtain ⟨negative, significand, exponent, canonical, rfl⟩ := exists_eq_finite finite
  rcases significand.eq_zero_or_pos with rfl | positive
  · have least : exponent = -1074 :=
      canonical.2.2.2.resolve_right (by decide)
    subst least
    have none : value = 0 := by
      rw [← Option.some_inj, ← finite]
      cases negative <;> simp [toRat?]
    rw [none, ofRat, if_pos rfl]
    rfl
  · have magnitude : (0 : ℚ) < significand * 2 ^ exponent := by positivity
    have signed : value =
        if negative then -((significand : ℚ) * 2 ^ exponent) else significand * 2 ^ exponent := by
      rw [← Option.some_inj, ← finite]
      rfl
    have nonzero : value ≠ 0 := by
      rw [signed]
      split <;> linarith
    have sign : decide (value < 0) = negative := by
      rw [signed]
      cases negative with
      | false => simpa using magnitude.le
      | true => simpa using magnitude
    have parts : ((value.num.natAbs : Nat) : ℚ) / value.den = significand * 2 ^ exponent := by
      rw [natAbs_num_div_den_eq_abs, signed]
      split
      · rw [abs_neg, abs_of_pos magnitude]
      · rw [abs_of_pos magnitude]
    have some : 0 < value.num.natAbs := Int.natAbs_pos.mpr (Rat.num_ne_zero.mpr nonzero)
    have point := gridPoint_of_bits canonical.1 canonical.2.1 some value.den_pos parts
    rw [ofRat, if_neg nonzero, sign]
    rcases ofQuotient_cases negative some value.den_pos with
      ⟨-, significand', exponent', canonical', equal, same⟩ | ⟨large, -⟩
    · rw [equal]
      rw [point] at same
      rcases le_total exponent exponent' with finer | coarser
      · obtain ⟨rfl, rfl⟩ := canonical_unique canonical canonical' finer same.symm
        rfl
      · obtain ⟨rfl, rfl⟩ := canonical_unique canonical' canonical coarser same
        rfl
    · rcases assemble_cases negative canonical.1 canonical.2.1 canonical.2.2.2 with
        ⟨small, -⟩ | ⟨-, infinite⟩
      · exact absurd (large.trans_eq point) small.not_ge
      · rw [assemble, dif_pos canonical] at infinite
        contradiction

end Exact

/-! ## Sums, quotients and products -/

/-- The sign bit of a number above zero is not set. -/
theorem unsigned_of_pos (finite : first.toRat? = some value) (positive : 0 < value) :
    first.Unsigned := by
  obtain ⟨negative, significand, exponent, canonical, rfl⟩ := exists_eq_finite finite
  refine ⟨?_, by simp⟩
  cases negative with
  | false => rfl
  | true =>
      cases finite
      have magnitude : 0 ≤ (significand : ℚ) * 2 ^ exponent := by positivity
      exact absurd positive (neg_nonpos.mpr magnitude).not_gt

theorem isZero_of_pos (finite : first.toRat? = some value) (positive : 0 < value) :
    first.isZero = false := by
  obtain ⟨negative, significand, exponent, canonical, rfl⟩ := exists_eq_finite finite
  rw [isZero, beq_eq_false_iff_ne]
  rintro rfl
  simp [toRat?] at finite
  exact positive.ne finite

theorem le_infinite (number : first ≠ .nan) : first ≤ infinite false := by
  obtain ⟨rank, ranked⟩ := exists_rank? number
  exact le_iff_rank?.mpr ⟨rank, ranked, ⊤, rfl, le_top⟩

theorem toRat?_zero : (0 : Binary64).toRat? = some 0 := by decide +kernel

theorem toRat?_one : (1 : Binary64).toRat? = some 1 := by decide +kernel

/-- One leaves every number as it is. -/
theorem unit_mul (number : Binary64) : 1 * number = number := by
  cases number with
  | nan => decide +kernel
  | infinite negative => cases negative <;> decide +kernel
  | finite negative significand exponent canonical =>
      obtain ⟨value, finite⟩ := exists_toRat? negative significand exponent canonical
      have sign : (1 : Binary64).isNegative = false := by decide +kernel
      rw [mul_of_toRat? toRat?_one finite, one_mul, sign, Bool.false_bne]
      exact ofRat_of_toRat? finite

/-- A number that compares as one is the number one. -/
theorem eq_one_of_equals (equal : first.equals 1 = true) : first = 1 := by
  obtain ⟨low, lowRank, high, highRank, rfl⟩ := equals_iff_rank?.mp equal
  have same : first.rank? = (1 : Binary64).rank? := lowRank.trans highRank.symm
  have finite : first.toRat? = some 1 := by
    rw [← rank?_eq_ofRat, same, rank?_of_toRat? toRat?_one]
  exact (unsigned_of_pos finite one_pos).eq_of_rank? (unsigned_of_pos toRat?_one one_pos) same

namespace Unsigned

theorem zero_le (unsigned : first.Unsigned) : 0 ≤ first := by
  cases first with
  | nan => exact absurd rfl unsigned.number
  | infinite negative =>
      cases unsigned.sign
      exact le_infinite (by decide)
  | finite negative significand exponent canonical =>
      obtain ⟨low, finite⟩ := exists_toRat? negative significand exponent canonical
      exact (le_iff_of_toRat? toRat?_zero finite).mpr (unsigned.nonneg finite)

/-- The sum of finite numbers is the exact sum, rounded. -/
theorem add_eq (unsigned : first.Unsigned) (unsigned' : second.Unsigned)
    (finite : first.toRat? = some low) (finite' : second.toRat? = some high) :
    first + second = ofRat (low + high) false := by
  rw [add_of_toRat? finite finite', unsigned.sign, unsigned'.sign]
  rfl

/-- The quotient of a finite number by one above zero is the exact quotient, rounded. -/
theorem quotient_eq (unsigned : first.Unsigned) (finite : first.toRat? = some low)
    (divides : divisor.toRat? = some value) (positive : 0 < value) :
    first.quotient divisor = ofRat (low / value) false := by
  rw [quotient_of_toRat? finite divides, unsigned.sign, (unsigned_of_pos divides positive).sign]
  rfl

theorem add (unsigned : first.Unsigned) (unsigned' : second.Unsigned)
    (finite : first.toRat? = some low) (finite' : second.toRat? = some high) :
    (first + second).Unsigned := by
  rw [unsigned.add_eq unsigned' finite finite']
  exact unsigned_ofRat (add_nonneg (unsigned.nonneg finite) (unsigned'.nonneg finite'))

theorem quotient (unsigned : first.Unsigned) (finite : first.toRat? = some low)
    (divides : divisor.toRat? = some value) (positive : 0 < value) :
    (first.quotient divisor).Unsigned := by
  rw [unsigned.quotient_eq finite divides positive]
  exact unsigned_ofRat (div_nonneg (unsigned.nonneg finite) positive.le)

/-- A divisor above zero keeps the order. -/
theorem quotient_le_quotient (unsigned : first.Unsigned) (unsigned' : second.Unsigned)
    (finite : first.toRat? = some low) (finite' : second.toRat? = some high)
    (divides : divisor.toRat? = some value) (positive : 0 < value) (atMost : low ≤ high) :
    first.quotient divisor ≤ second.quotient divisor := by
  rw [unsigned.quotient_eq finite divides positive, unsigned'.quotient_eq finite' divides positive]
  exact ofRat_le_ofRat (div_nonneg (unsigned.nonneg finite) positive.le) (by gcongr)

/-- The product of a finite number with one above zero is the exact product, rounded. -/
theorem mul_eq (unsigned : first.Unsigned) (finite : first.toRat? = some low)
    (multiplies : factor.toRat? = some value) (positive : 0 < value) :
    first * factor = ofRat (low * value) false := by
  rw [mul_of_toRat? finite multiplies, unsigned.sign, (unsigned_of_pos multiplies positive).sign]
  rfl

/-- The infinity stays one under a factor above zero. -/
theorem infinite_mul (multiplies : factor.toRat? = some value) (positive : 0 < value) :
    infinite false * factor = infinite false := by
  have unsigned := unsigned_of_pos multiplies positive
  obtain ⟨negative, significand, exponent, canonical, rfl⟩ := exists_eq_finite multiplies
  cases unsigned.sign
  change mul _ _ = _
  simp [mul, isZero_of_pos multiplies positive, isNegative]

/-- A factor above zero keeps the sign. -/
theorem mul (unsigned : first.Unsigned) (multiplies : factor.toRat? = some value)
    (positive : 0 < value) : (first * factor).Unsigned := by
  cases first with
  | nan => exact absurd rfl unsigned.number
  | infinite negative =>
      cases unsigned.sign
      rw [infinite_mul multiplies positive]
      exact ⟨rfl, by simp⟩
  | finite negative significand exponent canonical =>
      obtain ⟨low, finite⟩ := exists_toRat? negative significand exponent canonical
      rw [unsigned.mul_eq finite multiplies positive]
      exact unsigned_ofRat (mul_nonneg (unsigned.nonneg finite) positive.le)

/-- A factor above zero keeps the order. -/
theorem mul_le_mul (unsigned : first.Unsigned) (unsigned' : second.Unsigned)
    (multiplies : factor.toRat? = some value) (positive : 0 < value) (atMost : first ≤ second) :
    first * factor ≤ second * factor := by
  cases second with
  | nan => exact absurd rfl unsigned'.number
  | infinite negative' =>
      cases unsigned'.sign
      rw [infinite_mul multiplies positive]
      exact le_infinite (unsigned.mul multiplies positive).number
  | finite negative' significand' exponent' canonical' =>
      obtain ⟨high, finite'⟩ := exists_toRat? negative' significand' exponent' canonical'
      cases first with
      | nan => exact absurd rfl unsigned.number
      | infinite negative =>
          cases unsigned.sign
          have top : Rank.ofRat high = ⊤ := by
            simpa [le_iff_rank?, rank?, finite'] using atMost
          exact absurd top.symm (Rank.top_ne_ofRat high)
      | finite negative significand exponent canonical =>
          obtain ⟨low, finite⟩ := exists_toRat? negative significand exponent canonical
          have values := (le_iff_of_toRat? finite finite').mp atMost
          rw [unsigned.mul_eq finite multiplies positive,
            unsigned'.mul_eq finite' multiplies positive]
          exact ofRat_le_ofRat (mul_nonneg (unsigned.nonneg finite) positive.le) (by gcongr)

theorem least (unsigned : first.Unsigned) (unsigned' : second.Unsigned) :
    (first.least second).Unsigned := by
  rw [Binary64.least]
  split
  · exact unsigned'
  · exact unsigned

end Unsigned

/-- Of a number and a bound the lesser one grows with the number. -/
theorem least_mono {bound : Binary64} (number : bound ≠ .nan) (atMost : first ≤ second) :
    first.least bound ≤ second.least bound := by
  rw [least.eq_1 second]
  split
  next exceeds => exact least_le (ne_nan_of_le atMost).1 number
  next within =>
    rw [least, if_neg fun exceeds => within (lt_of_lt_of_le exceeds atMost)]
    exact atMost

/-! ## Numbers of moderate size -/

/-- A value far below the range is rounded to a finite number. -/
theorem isFinite_ofRat (small : |value| < 2 ^ (1000 : Int)) (zeroNegative : Bool) :
    (ofRat value zeroNegative).IsFinite := by
  by_cases none : value = 0
  · rw [ofRat, if_pos none]
    rfl
  · have some : 0 < value.num.natAbs := Int.natAbs_pos.mpr (Rat.num_ne_zero.mpr none)
    have inRange : (2 : ℚ) ^ (1000 : Int) < 2 ^ (1024 : Int) :=
      zpow_lt_zpow_right₀ one_lt_two (by norm_num)
    have rounded : gridPoint value.num.natAbs value.den ≤ 2 ^ ((1000 : Nat) : Int) :=
      gridPoint_le some value.den_pos (natAbs_num_div_den_eq_abs value ▸ small)
    rw [ofRat, if_neg none]
    rcases ofQuotient_cases (value < 0) some value.den_pos with
      ⟨-, significand, exponent, canonical, equal, -⟩ | ⟨large, -⟩
    · rw [equal]
      rfl
    · exact absurd (large.trans rounded) inRange.not_ge

/-- A finite number that sums and small multiples leave finite. -/
def IsModerate (number : Binary64) : Prop :=
  ∃ value ∈ number.toRat?, |value| < 2 ^ (900 : Int)

namespace IsModerate

theorem limit : (2 : ℚ) ^ (900 : Int) * 1000 < 2 ^ (1000 : Int) := by
  have apart : (1000 : ℚ) < 2 ^ (100 : Int) := by norm_num
  calc (2 : ℚ) ^ (900 : Int) * 1000 < 2 ^ (900 : Int) * 2 ^ (100 : Int) := by gcongr
    _ = 2 ^ (1000 : Int) := (zpow_add₀ two_ne_zero _ _).symm

theorem isFinite (moderate : first.IsModerate) : first.IsFinite := by
  obtain ⟨value, equal, -⟩ := moderate
  exact isFinite_iff.mpr ⟨value, equal⟩

/-- The sum of moderate numbers is finite. -/
theorem add (moderate : first.IsModerate) (moderate' : second.IsModerate) :
    (first + second).IsFinite := by
  obtain ⟨low, equal, small⟩ := moderate
  obtain ⟨high, equal', small'⟩ := moderate'
  rw [add_of_toRat? equal equal']
  refine isFinite_ofRat ?_ _
  calc |low + high| ≤ |low| + |high| := abs_add_le _ _
    _ < 2 ^ (900 : Int) + 2 ^ (900 : Int) := add_lt_add small small'
    _ = 2 ^ (900 : Int) * 2 := (mul_two _).symm
    _ ≤ 2 ^ (900 : Int) * 1000 := by gcongr; norm_num
    _ < 2 ^ (1000 : Int) := limit

/-- So is the product with a small number. -/
theorem mul (moderate : first.IsModerate) (multiplies : factor.toRat? = some value)
    (small : |value| ≤ 1000) : (first * factor).IsFinite := by
  obtain ⟨low, equal, small'⟩ := moderate
  rw [mul_of_toRat? equal multiplies]
  refine isFinite_ofRat ?_ _
  calc |low * value| = |low| * |value| := abs_mul _ _
    _ ≤ 2 ^ (900 : Int) * 1000 := by gcongr
    _ < 2 ^ (1000 : Int) := limit

/-- So is the quotient by a number that is not less than one. -/
theorem quotient (moderate : first.IsModerate) (divides : divisor.toRat? = some value)
    (atLeast : 1 ≤ |value|) : (first.quotient divisor).IsFinite := by
  obtain ⟨low, equal, small⟩ := moderate
  rw [quotient_of_toRat? equal divides]
  refine isFinite_ofRat ?_ _
  calc |low / value| = |low| / |value| := abs_div _ _
    _ ≤ |low| := div_le_self (abs_nonneg _) atLeast
    _ < 2 ^ (900 : Int) := small
    _ ≤ 2 ^ (900 : Int) * 1000 := le_mul_of_one_le_right (by positivity) (by norm_num)
    _ < 2 ^ (1000 : Int) := limit

end IsModerate
end Montage.Binary64
