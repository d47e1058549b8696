import Montage.Proofs.Binary64.Arithmetic

/-!
# Bounds of results

Where the parts of a product or a quotient lie between powers of two, the result lies between
powers of two as well, since rounding leaves these as they are. A chain of operations is therefore
finite if the exponents that it adds up stay in the range. Shrinking a number, or growing it, shows
in the order even where no bounds are known.
-/

namespace Montage.Binary64

variable {first second third factor divisor : Binary64} {low high value : ℚ}

/-! ## Order -/

theorem le_trans (atMost : first ≤ second) (atMost' : second ≤ third) : first ≤ third := by
  obtain ⟨low, lowRank, middle, middleRank, below⟩ := le_iff_rank?.mp atMost
  obtain ⟨middle', middleRank', high, highRank, below'⟩ := le_iff_rank?.mp atMost'
  cases Option.mem_unique middleRank middleRank'
  exact le_iff_rank?.mpr ⟨low, lowRank, high, highRank, below.trans below'⟩

theorem least_le_first (number : first ≠ .nan) : first.least second ≤ first := by
  rw [least]
  split
  next less => exact le_of_lt less
  next => exact le_self number

theorem least_eq_or (first second : Binary64) :
    first.least second = first ∨ first.least second = second := by
  rw [least]
  split
  · exact .inr rfl
  · exact .inl rfl

theorem greatest_eq_or (first second : Binary64) :
    first.greatest second = first ∨ first.greatest second = second := by
  rw [greatest]
  split
  · exact .inr rfl
  · exact .inl rfl

/-- The greatest of several numbers is one of them. -/
theorem foldl_greatest_mem (first : Binary64) (rest : List Binary64) :
    rest.foldl greatest first ∈ first :: rest := by
  induction rest generalizing first with
  | nil => exact List.mem_cons_self
  | cons next rest ih =>
      rcases List.mem_cons.mp (ih (first.greatest next)) with same | later
      · rw [List.foldl_cons, same]
        rcases greatest_eq_or first next with kept | raised
        · rw [kept]
          exact List.mem_cons_self
        · rw [raised]
          exact List.mem_cons_of_mem _ List.mem_cons_self
      · exact List.mem_cons_of_mem _ (List.mem_cons_of_mem _ later)

/-- A number between two limits either lies at the lower one or was not raised. -/
theorem clamp_eq_or_le {low high : Binary64} (number : first ≠ .nan) (ordered : low ≤ high) :
    (first.greatest low).least high = low ∨ (first.greatest low).least high ≤ first := by
  rcases greatest_eq_or first low with kept | raised
  · right
    rw [kept]
    exact least_le_first number
  · left
    rw [raised, least, if_neg (not_lt_of_le ordered)]

/-! ## Finite numbers -/

/-- A value that is not negative is made of the parts of a number. -/
theorem exists_form (finite : first.toRat? = some value) (nonnegative : 0 ≤ value) :
    ∃ (significand : Nat) (exponent : Int),
      Canonical significand exponent ∧ value = significand * 2 ^ exponent := by
  obtain ⟨negative, significand, exponent, canonical, rfl⟩ := exists_eq_finite finite
  refine ⟨significand, exponent, canonical, ?_⟩
  have magnitude : 0 ≤ (significand : ℚ) * 2 ^ exponent := by positivity
  cases negative with
  | false => exact (Option.some.inj finite).symm
  | true =>
      have opposite : -((significand : ℚ) * 2 ^ exponent) = value := Option.some.inj finite
      linarith

/-- Rounding leaves the value of a number as it is, and so it does under greater exponents. -/
theorem rounded_scaled (finite : first.toRat? = some value) (nonnegative : 0 ≤ value)
    (places : Nat) : rounded (2 ^ places * value) = 2 ^ places * value := by
  obtain ⟨significand, exponent, canonical, rfl⟩ := exists_form finite nonnegative
  have least : -1074 ≤ exponent + places := by
    have := canonical.2.1
    omega
  refine rounded_of_bits canonical.1 least ?_
  rw [zpow_add₀ two_ne_zero, zpow_natCast]
  ring

theorem rounded_of_toRat? (finite : first.toRat? = some value) (nonnegative : 0 ≤ value) :
    rounded value = value := by
  have scaled := rounded_scaled finite nonnegative 0
  rwa [pow_zero, one_mul] at scaled

/-- Every value lies below the end of the range. -/
theorem lt_of_toRat? (finite : first.toRat? = some value) : value < 2 ^ (1024 : Int) := by
  rcases lt_or_ge value 0 with below | nonnegative
  · exact below.trans (by positivity)
  · obtain ⟨significand, exponent, canonical, rfl⟩ := exists_form finite nonnegative
    rcases assemble_cases false canonical.1 canonical.2.1 canonical.2.2.2 with
      ⟨small, -⟩ | ⟨-, infinite⟩
    · exact small
    · rw [assemble, dif_pos canonical] at infinite
      contradiction

/-- A number without a sign is finite if it is at most a finite one. -/
theorem Unsigned.isFinite_of_le (unsigned : first.Unsigned) (atMost : first ≤ second)
    (finite : second.IsFinite) : first.IsFinite :=
  isFinite_of_le_of_le unsigned.zero_le atMost (isFinite_iff.mpr ⟨0, toRat?_zero⟩) finite

theorem Unsigned.eq_infinite (unsigned : first.Unsigned) (unbounded : ¬first.IsFinite) :
    first = .infinite false := by
  cases first with
  | nan => exact absurd rfl unsigned.number
  | infinite negative =>
      cases unsigned.sign
      rfl
  | finite => exact absurd rfl unbounded

theorem toRat?_of_pos (above : 0 < first) (bounded : first ≠ .infinite false) :
    ∃ value, first.toRat? = some value ∧ 0 < value := by
  cases first with
  | nan => exact absurd rfl (ne_nan_of_lt above).2
  | infinite negative =>
      cases negative with
      | false => exact absurd rfl bounded
      | true => exact absurd above (by decide +kernel)
  | finite negative significand exponent canonical =>
      obtain ⟨value, finite⟩ := exists_toRat? negative significand exponent canonical
      exact ⟨value, finite, (lt_iff_of_toRat? toRat?_zero finite).mp above⟩

/-- A number below a value that needs no rounding is below it before the rounding as well. -/
theorem le_of_le_ofRat (finite : first.toRat? = some low) (nonnegative : 0 ≤ high)
    (kept : rounded high = high) (atMost : first ≤ ofRat high false) : low ≤ high := by
  rcases ofRat_cases nonnegative false with ⟨-, finite'⟩ | ⟨large, -⟩
  · rw [kept] at finite'
    exact (le_iff_of_toRat? finite finite').mp atMost
  · rw [kept] at large
    exact (lt_of_toRat? finite).le.trans large

/-- A number above zero is at least the least one of the format. -/
theorem zpow_le_of_pos (finite : first.toRat? = some value) (positive : 0 < value) :
    2 ^ (-1074 : Int) ≤ value := by
  obtain ⟨significand, exponent, canonical, rfl⟩ := exists_form finite positive.le
  have some : 1 ≤ significand := by
    by_contra none
    rw [Nat.lt_one_iff.mp (not_le.mp none), Nat.cast_zero, zero_mul] at positive
    exact lt_irrefl _ positive
  calc (2 : ℚ) ^ (-1074 : Int) ≤ 2 ^ exponent := zpow_le_zpow_right₀ one_le_two canonical.2.1
    _ ≤ significand * 2 ^ exponent := le_mul_of_one_le_left (by positivity) (by exact_mod_cast some)

theorem unsigned_of_ofIntQuotient {numerator denominator : Int}
    (divided : ofIntQuotient numerator denominator = .ok first) (nonnegative : 0 ≤ numerator)
    (positive : 0 < denominator) : first.Unsigned := by
  rw [(of_ofIntQuotient divided).1, decide_eq_false positive.not_gt]
  have numerator : (0 : ℚ) ≤ numerator := by exact_mod_cast nonnegative
  have denominator : (0 : ℚ) < denominator := by exact_mod_cast positive
  exact unsigned_ofRat (div_nonneg numerator denominator.le)

/-! ## Factors -/

/-- The order of the parts of a product does not matter. -/
theorem product_comm (first second : Binary64) : first * second = second * first := by
  have signs : (first.isNegative != second.isNegative) =
      (second.isNegative != first.isNegative) := bne_comm
  change first.mul second = second.mul first
  cases first with
  | nan => cases second <;> rfl
  | infinite => cases second <;> simp [mul, isZero, signs]
  | finite => cases second <;> simp [mul, Rat.mul_comm, signs]

theorem Unsigned.ofRat_eq (unsigned : first.Unsigned) (finite : first.toRat? = some value) :
    ofRat value false = first := by
  rw [← unsigned.sign]
  exact ofRat_of_toRat? finite

/-- A factor above zero and at most one makes no number greater. -/
theorem Unsigned.mul_le (unsigned : first.Unsigned) (part : factor.toRat? = some value)
    (positive : 0 < value) (atMost : value ≤ 1) : first * factor ≤ first := by
  cases first with
  | nan => exact absurd rfl unsigned.number
  | infinite negative =>
      cases unsigned.sign
      exact le_infinite (unsigned.mul part positive).number
  | finite negative significand exponent canonical =>
      obtain ⟨whole, finite⟩ := exists_toRat? negative significand exponent canonical
      have nonnegative := unsigned.nonneg finite
      rw [unsigned.mul_eq finite part positive]
      calc ofRat (whole * value) false
          ≤ ofRat whole false :=
            ofRat_le_ofRat (by positivity) (mul_le_of_le_one_right nonnegative atMost)
        _ = _ := unsigned.ofRat_eq finite

/-- A factor of at least one makes no number less. -/
theorem Unsigned.le_mul (unsigned : first.Unsigned) (finite : first.toRat? = some low)
    (multiplies : factor.toRat? = some value) (atLeast : 1 ≤ value) : first ≤ first * factor := by
  have nonnegative := unsigned.nonneg finite
  calc first = ofRat low false := (unsigned.ofRat_eq finite).symm
    _ ≤ ofRat (low * value) false :=
        ofRat_le_ofRat nonnegative (le_mul_of_one_le_right nonnegative atLeast)
    _ = first * factor := (unsigned.mul_eq finite multiplies (by linarith)).symm

/-- An infinity taken any number of times is one, but taken no times it is no number. -/
theorem Unsigned.mul_infinite (unsigned : first.Unsigned) :
    first * infinite false = infinite false ∨ first * infinite false = nan := by
  rw [product_comm]
  change (infinite false).mul first = infinite false ∨ (infinite false).mul first = nan
  cases first with
  | nan => exact absurd rfl unsigned.number
  | infinite negative =>
      cases unsigned.sign
      exact .inl rfl
  | finite negative significand exponent canonical =>
      cases unsigned.sign
      simp only [Binary64.mul, isNegative]
      split
      · exact .inr rfl
      · exact .inl rfl

theorem mul_nan (number : Binary64) : number * nan = nan := by
  cases number <;> rfl

theorem nan_least (number : Binary64) : nan.least number = nan := by
  have unordered : ¬number < nan := fun less => (ne_nan_of_lt less).2 rfl
  rw [least, if_neg unordered]

/-- Infinitely many parts of a number are nothing. -/
theorem Unsigned.quotient_infinite (unsigned : first.Unsigned) (finite : first.IsFinite) :
    first.quotient (.infinite false) = 0 := by
  obtain ⟨value, finite⟩ := isFinite_iff.mp finite
  obtain ⟨negative, significand, exponent, canonical, rfl⟩ := exists_eq_finite finite
  cases unsigned.sign
  change zero false = ofRat 0 false
  rw [ofRat, if_pos rfl]

/-! ## Differences -/

theorem toRat?_negate (finite : first.toRat? = some value) : (-first).toRat? = some (-value) := by
  obtain ⟨negative, significand, exponent, canonical, rfl⟩ := exists_eq_finite finite
  cases finite
  change some _ = some _
  cases negative <;> simp

/-- A number minus a lesser one is neither negative nor out of the range. -/
theorem sub_of_le (finite : first.toRat? = some low) (finite' : second.toRat? = some high)
    (nonnegative : 0 ≤ low) (atMost : low ≤ high) :
    ∃ difference, (second - first).toRat? = some difference ∧ 0 ≤ difference := by
  have opposite : second - first = second + -first := rfl
  rw [opposite, add_of_toRat? finite' (toRat?_negate finite)]
  obtain ⟨difference, equal, least, -⟩ :=
    toRat?_ofRat_mem (show 0 ≤ high + -low by linarith) (show high + -low ≤ high by linarith)
      (rounded_of_toRat? finite' (nonnegative.trans atMost)) (lt_of_toRat? finite')
      (second.isNegative && (-first).isNegative)
  exact ⟨difference, equal, least⟩

/-- The integer nearest to a number that is not negative is not negative either. -/
theorem round_of_nonneg (finite : first.toRat? = some value) (nonnegative : 0 ≤ value) :
    ∃ whole, first.round = .ok whole ∧ 0 ≤ whole := by
  obtain ⟨_, _, _, _, rfl⟩ := exists_eq_finite finite
  refine ⟨roundQuotient value.num.natAbs value.den, ?_, Int.natCast_nonneg _⟩
  simp only [round, toIntBy, finite, Option.getD_some, if_neg nonnegative.not_gt]

/-! ## Powers of two -/

/-- A finite number whose value lies between two powers of two. -/
def Spans (least greatest : Int) (number : Binary64) : Prop :=
  ∃ value, number.toRat? = some value ∧ 2 ^ least ≤ value ∧ value ≤ 2 ^ greatest

section Spans

variable {least least' greatest greatest' : Int}

theorem rounded_zpow (inRange : -1074 ≤ least) : rounded (2 ^ least) = 2 ^ least :=
  rounded_of_bits (show 1 < powerOfTwo 53 by decide) inRange (by rw [Nat.cast_one, one_mul])

theorem spans_ofRat (atLeast : 2 ^ least ≤ value) (atMost : value ≤ 2 ^ greatest)
    (inRange : -1074 ≤ least ∧ greatest < 1024) (zeroNegative : Bool) :
    (ofRat value zeroNegative).Spans least greatest := by
  have power : (0 : ℚ) < 2 ^ least := zpow_pos two_pos least
  have ordered : least ≤ greatest :=
    (zpow_le_zpow_iff_right₀ one_lt_two).mp (atLeast.trans atMost)
  have above := rounded_mono power.le atLeast
  have below := rounded_mono (power.le.trans atLeast) atMost
  rw [rounded_zpow (by omega)] at above below
  rcases ofRat_cases (power.le.trans atLeast) zeroNegative with ⟨-, finite⟩ | ⟨large, -⟩
  · exact ⟨_, finite, above, below⟩
  · have power' : (2 : ℚ) ^ greatest < 2 ^ (1024 : Int) :=
      zpow_lt_zpow_right₀ one_lt_two inRange.2
    exact absurd (large.trans below) power'.not_ge

/-- A part that is at least a half. -/
theorem spans_part (atLeast : 1 / 2 ≤ value) (atMost : value ≤ 1) :
    (ofRat value false).Spans (-1) 0 := by
  refine spans_ofRat ?_ ?_ (by norm_num) false
  · rwa [zpow_neg_one, ← one_div]
  · rwa [zpow_zero]

/-- The quotient of two integers above zero that lie below powers of two. -/
theorem ofIntQuotient_of_le {numerator denominator : Int} {places places' : Nat}
    (atLeast : 1 ≤ numerator) (atMost : numerator ≤ 2 ^ places)
    (atLeast' : 1 ≤ denominator) (atMost' : denominator ≤ 2 ^ places')
    (inRange : places' ≤ 1074 ∧ places < 1024) :
    ∃ quotient, ofIntQuotient numerator denominator = .ok quotient ∧
      quotient.Spans (-places') places := by
  have low : (1 : ℚ) ≤ numerator := by exact_mod_cast atLeast
  have high : (numerator : ℚ) ≤ 2 ^ (places : Int) := by rw [zpow_natCast]; exact_mod_cast atMost
  have low' : (1 : ℚ) ≤ denominator := by exact_mod_cast atLeast'
  have high' : (denominator : ℚ) ≤ 2 ^ (places' : Int) := by
    rw [zpow_natCast]
    exact_mod_cast atMost'
  have spans : (ofRat ((numerator : ℚ) / denominator) (denominator < 0)).Spans
      (-places') places := by
    refine spans_ofRat ?_ ?_ ⟨by omega, by omega⟩ _
    · rw [zpow_neg, inv_eq_one_div]
      gcongr
    · exact (div_le_self (by linarith) low').trans high
  obtain ⟨value, finite, bounds⟩ := spans
  obtain ⟨_, _, _, _, equal⟩ := exists_eq_finite finite
  refine ⟨_, ?_, value, finite, bounds⟩
  rw [ofIntQuotient, if_neg (by omega), equal]

theorem ofInt_of_le {whole : Int} {places : Nat} (atLeast : 1 ≤ whole) (atMost : whole ≤ 2 ^ places)
    (inRange : places < 1024) :
    ofInt whole = .ok (ofRat whole false) ∧ (ofRat whole false).Spans 0 places := by
  have low : (2 : ℚ) ^ (0 : Int) ≤ whole := by exact_mod_cast atLeast
  have high : (whole : ℚ) ≤ 2 ^ (places : Int) := by rw [zpow_natCast]; exact_mod_cast atMost
  have spans := spans_ofRat low high ⟨by omega, by omega⟩ false
  obtain ⟨value, finite, bounds⟩ := spans
  obtain ⟨_, _, _, _, equal⟩ := exists_eq_finite finite
  refine ⟨?_, value, finite, bounds⟩
  rw [ofInt, equal]

namespace Spans

theorem pos (spans : first.Spans least greatest) :
    ∃ value, first.toRat? = some value ∧ 0 < value := by
  obtain ⟨value, finite, atLeast, -⟩ := spans
  exact ⟨value, finite, (zpow_pos two_pos least).trans_le atLeast⟩

/-- Numbers up to one are parts. -/
theorem part (spans : first.Spans least 0) :
    ∃ value, first.toRat? = some value ∧ 0 < value ∧ value ≤ 1 := by
  obtain ⟨value, finite, atLeast, atMost⟩ := spans
  exact ⟨value, finite, (zpow_pos two_pos least).trans_le atLeast, atMost.trans_eq (zpow_zero 2)⟩

theorem unsigned (spans : first.Spans least greatest) : first.Unsigned := by
  obtain ⟨value, finite, positive⟩ := spans.pos
  exact unsigned_of_pos finite positive

theorem isFinite (spans : first.Spans least greatest) : first.IsFinite := by
  obtain ⟨value, finite, -⟩ := spans
  exact isFinite_iff.mpr ⟨value, finite⟩

theorem mono (spans : first.Spans least greatest) (atLeast : least' ≤ least)
    (atMost : greatest ≤ greatest') : first.Spans least' greatest' := by
  obtain ⟨value, finite, above, below⟩ := spans
  exact ⟨value, finite, (zpow_le_zpow_right₀ one_le_two atLeast).trans above,
    below.trans (zpow_le_zpow_right₀ one_le_two atMost)⟩

/-- A number is at least every power of two below it. -/
theorem le (spans : first.Spans least greatest) (atLeast : least' ≤ least) :
    ofRat (2 ^ least') false ≤ first := by
  obtain ⟨value, finite, above, -⟩ := spans.mono atLeast le_rfl
  have positive : (0 : ℚ) < 2 ^ least' := zpow_pos two_pos least'
  calc ofRat (2 ^ least') false
      ≤ ofRat value false := ofRat_le_ofRat positive.le above
    _ = first := (unsigned_of_pos finite (positive.trans_le above)).ofRat_eq finite

theorem mul (spans : first.Spans least greatest) (spans' : second.Spans least' greatest')
    (inRange : -1074 ≤ least + least' ∧ greatest + greatest' < 1024) :
    (first * second).Spans (least + least') (greatest + greatest') := by
  obtain ⟨value, finite, atLeast, atMost⟩ := spans
  obtain ⟨value', finite', atLeast', atMost'⟩ := spans'
  have positive : 0 < value := (zpow_pos two_pos least).trans_le atLeast
  rw [mul_of_toRat? finite finite']
  refine spans_ofRat ?_ ?_ inRange _
  · rw [zpow_add₀ two_ne_zero]
    gcongr
  · rw [zpow_add₀ two_ne_zero]
    gcongr
    exact (zpow_pos two_pos least').le.trans atLeast'

theorem quotient (spans : first.Spans least greatest) (spans' : second.Spans least' greatest')
    (inRange : -1074 ≤ least - greatest' ∧ greatest - least' < 1024) :
    (first.quotient second).Spans (least - greatest') (greatest - least') := by
  obtain ⟨value, finite, atLeast, atMost⟩ := spans
  obtain ⟨value', finite', atLeast', atMost'⟩ := spans'
  have positive : 0 < value := (zpow_pos two_pos least).trans_le atLeast
  have positive' : 0 < value' := (zpow_pos two_pos least').trans_le atLeast'
  rw [quotient_of_toRat? finite finite']
  refine spans_ofRat ?_ ?_ inRange _
  · rw [zpow_sub₀ two_ne_zero]
    gcongr
  · rw [zpow_sub₀ two_ne_zero]
    gcongr

end Spans

end Spans

end Montage.Binary64
