import Montage.Proofs.Filter.Decimal

/-!
# The precision of numerals

A numeral of a finite number is a decimal without a superfluous digit, and it stands for the
multiple of a millionth that is nearest to the number. That holds for both forms of a numeral: the
integer that a number is, and its six places of which the zeros at the end are dropped. Nearest
multiples keep the order of numbers, so two times in order are written as two times in order.

The other values are written as words, which nothing reads as a number. Whether a numeral is a
decimal therefore depends on nothing but whether its number is finite.
-/

namespace Montage

variable {text : List Char} {places : Nat}

/-! ## Nearest multiples -/

/-- An integer that a value is off by a half at most, and by a half only if it is even. -/
structure NearestInt (value : ℚ) (integer : ℤ) : Prop where
  near : |value - integer| ≤ 1 / 2
  even : |value - integer| = 1 / 2 → Even integer

namespace NearestInt

variable {value low high : ℚ} {integer first second : ℤ}

theorem of_nearest {count : Nat} (nearest : Binary64.Nearest value count) :
    NearestInt value count where
  near := abs_sub_le_iff.mpr ⟨by push_cast; linarith [nearest.above],
    by push_cast; linarith [nearest.below]⟩
  even := by
    intro tie
    rw [Int.cast_natCast] at tie
    rcases abs_choice (value - count) with above | below
    · exact (nearest.even_above (by linarith)).natCast
    · exact (nearest.even_below (by linarith)).natCast

theorem neg (nearest : NearestInt value integer) : NearestInt (-value) (-integer) := by
  have same : |-value - (-integer : ℤ)| = |value - integer| := by
    rw [← abs_neg]
    push_cast
    ring_nf
  exact ⟨same ▸ nearest.near, fun tie => (nearest.even (same ▸ tie)).neg⟩

theorem of_intCast (integer : ℤ) : NearestInt integer integer := by
  constructor
  · simp
  · simp

/-- Nearest integers are in the order of the values. -/
theorem mono (nearest : NearestInt low first) (nearest' : NearestInt high second)
    (atMost : low ≤ high) : first ≤ second := by
  by_contra above
  have next : (second : ℚ) + 1 ≤ first := by exact_mod_cast not_le.mp above
  have lower := abs_sub_le_iff.mp nearest.near
  have upper := abs_sub_le_iff.mp nearest'.near
  -- Both values lie half-way between the two integers, of which only one is even.
  have even := nearest.even (by rw [abs_of_neg (by linarith)]; linarith)
  have even' := nearest'.even (by rw [abs_of_pos (by linarith)]; linarith)
  have consecutive : first = second + 1 := by
    have : (first : ℚ) = second + 1 := by linarith
    exact_mod_cast this
  rw [consecutive] at even
  exact (Int.even_add_one.mp even) even'

/-- An even integer is the nearest one to all values within a half. -/
theorem eq_iff (nearest : NearestInt value integer) (even : Even first) :
    integer = first ↔ |value - first| ≤ 1 / 2 := by
  constructor
  · rintro rfl
    exact nearest.near
  · intro near
    have nearest' : NearestInt value first := ⟨near, fun _ => even⟩
    exact le_antisymm (nearest.mono nearest' le_rfl) (nearest'.mono nearest le_rfl)

end NearestInt

/-! ## What is written for a value -/

/-- A text that writes a value to so many places: a decimal without a superfluous digit and without
an exponent, for the nearest multiple of the last place. -/
structure Writes (places : Nat) (text : List Char) (value : ℚ) : Prop where
  concise : IsConcise places text
  exponentless : 'e' ∉ text ∧ 'E' ∉ text
  nearest : ∃ count : ℤ, readDecimal text = count / 10 ^ places ∧
    NearestInt (value * 10 ^ places) count

/-- The exact value of a number. A number that is not finite counts as zero. -/
def Number.value : Number → ℚ
  | .int value => value
  | .real value => value.toRat?.getD 0

theorem Number.value_real {value : Binary64} {exact : ℚ} (finite : value.toRat? = some exact) :
    (Number.real value).value = exact := by
  rw [Number.value, finite, Option.getD_some]

namespace Writes

variable {more : List Char} {low high value : ℚ}

theorem of_isConcise {count : ℤ} (concise : IsConcise places text)
    (equal : readDecimal text = count / 10 ^ places)
    (nearest : NearestInt (value * 10 ^ places) count) : Writes places text value where
  concise := concise
  exponentless :=
    ⟨fun member => absurd (concise.isDecimal.isDigit_or member) (by decide),
      fun member => absurd (concise.isDecimal.isDigit_or member) (by decide)⟩
  nearest := ⟨count, equal, nearest⟩

section Signs

variable {count : Nat} (concise : IsConciseMagnitude places text)
variable (equal : readMagnitude text = count / 10 ^ places)
variable (nearest : NearestInt (value * 10 ^ places) count)

include concise equal nearest

/-- A decimal without a sign writes a value that it is nearest to. -/
theorem of_magnitude : Writes places text value := by
  refine of_isConcise (.positive concise) ?_ nearest
  rw [concise.isMagnitude.readDecimal_eq, equal, Int.cast_natCast]

/-- A decimal after a minus sign writes the opposite value. -/
theorem of_magnitude_neg : Writes places ('-' :: text) (-value) := by
  have opposite := nearest.neg
  rw [← neg_mul] at opposite
  refine of_isConcise (.negative concise) ?_ opposite
  rw [readDecimal, equal, Int.cast_neg, Int.cast_natCast, neg_div]

end Signs

/-- Texts of values in order stand for values in order. -/
theorem mono (writes : Writes places text low) (writes' : Writes places more high)
    (atMost : low ≤ high) : readDecimal text ≤ readDecimal more := by
  obtain ⟨first, equal, nearest⟩ := writes.nearest
  obtain ⟨second, equal', nearest'⟩ := writes'.nearest
  have ordered : (first : ℚ) ≤ second := by exact_mod_cast nearest.mono nearest' (by gcongr)
  rw [equal, equal']
  gcongr

/-- A text stands for an integer if its value is off by half of the last place at most. -/
theorem readDecimal_eq_iff (writes : Writes places text value) (positive : 0 < places)
    (integer : ℤ) :
    readDecimal text = integer ↔ |value - integer| ≤ 1 / 2 / 10 ^ places := by
  obtain ⟨count, equal, nearest⟩ := writes.nearest
  have power : (0 : ℚ) < 10 ^ places := by positivity
  have even : Even (integer * 10 ^ places) :=
    ((by decide : Even (10 : ℤ)).pow_of_ne_zero positive.ne').mul_left integer
  have scaled : value * 10 ^ places - (integer * 10 ^ places : ℤ) =
      (value - integer) * 10 ^ places := by
    push_cast
    ring
  calc readDecimal text = integer ↔ count = integer * 10 ^ places := by
        rw [equal, div_eq_iff power.ne']
        exact_mod_cast Iff.rfl
    _ ↔ |value - integer| ≤ 1 / 2 / 10 ^ places := by
        rw [nearest.eq_iff even, scaled, abs_mul, abs_of_pos power, le_div_iff₀ power]

end Writes

/-- An integer is written with all its digits. -/
theorem writes_integerText (places : Nat) (value : Int) :
    Writes places (integerText value) value := by
  have concise : IsConciseMagnitude places (digitsOf value.natAbs) :=
    .whole (isWhole_digitsOf value.natAbs)
  have equal : readMagnitude (digitsOf value.natAbs) =
      (value.natAbs * 10 ^ places : Nat) / 10 ^ places := by
    rw [readMagnitude_whole (isDigits_digitsOf _), ofDigitChars_digitsOf]
    push_cast
    field_simp
  have nearest : NearestInt ((value.natAbs : ℚ) * 10 ^ places)
      (value.natAbs * 10 ^ places : Nat) := by
    simpa using NearestInt.of_intCast (value.natAbs * 10 ^ places : Nat)
  rw [integerText]
  split
  next below =>
    have sign : (value : ℚ) = -(value.natAbs : ℚ) := by
      rw [Nat.cast_natAbs, abs_of_neg below, Int.cast_neg, neg_neg]
    rw [sign]
    exact .of_magnitude_neg concise equal nearest
  next above =>
    have sign : (value : ℚ) = (value.natAbs : ℚ) := by
      rw [Nat.cast_natAbs, abs_of_nonneg (not_lt.mp above)]
    rw [sign]
    exact .of_magnitude concise equal nearest

namespace Filter

variable {value : Binary64} {number : Number}

/-! ## Fixed places -/

/-- Trimming drops the zeros at the end of a fraction, and the point if no digit is left. -/
theorem trimFraction_append {front fraction : List Char} (pointless : '.' ∉ front)
    (places : '.' ∉ fraction) :
    trimFraction (front ++ '.' :: fraction) =
      if Binary64.dropTrailingZeros fraction = [] then front
      else front ++ '.' :: Binary64.dropTrailingZeros fraction := by
  have keep {text : List Char} (pointless : '.' ∉ text) :
      text.dropWhile (· == '.') = text := by
    cases text with
    | nil => rfl
    | cons first rest =>
        exact List.dropWhile_cons_of_neg fun point =>
          pointless (List.mem_cons.mpr (.inl (beq_iff_eq.mp point).symm))
  have zeroless : ('.' :: front.reverse).dropWhile (· == '0') = '.' :: front.reverse :=
    List.dropWhile_cons_of_neg (by decide)
  have back : (front ++ '.' :: fraction).reverse = fraction.reverse ++ '.' :: front.reverse := by
    simp
  simp only [trimFraction, Binary64.dropTrailingZeros, back, List.dropWhile_append, zeroless,
    List.reverse_reverse, List.isEmpty_iff, List.reverse_eq_nil_iff]
  split
  next =>
    rw [List.dropWhile_cons_of_pos (by decide), keep (by simpa using pointless),
      List.reverse_reverse]
  next some =>
    have kept : '.' ∉ fraction.reverse.dropWhile (· == '0') := fun member =>
      places (List.mem_reverse.mp ((List.dropWhile_sublist _).subset member))
    rw [List.dropWhile_append, keep kept, if_neg (by simpa using some)]
    simp

/-- So many units of the last place, written with a point and without the zeros at the end. -/
theorem exists_magnitude (positive : 0 < places) (units : Nat) :
    ∃ magnitude, IsConciseMagnitude places magnitude ∧
      readMagnitude magnitude = units / 10 ^ places ∧
      ∀ sign, '.' ∉ sign →
        trimFraction (sign ++ (digitsOf (units / 10 ^ places) ++
          '.' :: paddedDigits places (units % 10 ^ places))) = sign ++ magnitude := by
  have power : 0 < 10 ^ places := Nat.pow_pos (by decide)
  have length := length_paddedDigits positive (Nat.mod_lt units power)
  have digits := isDigits_paddedDigits places (units % 10 ^ places)
  have whole := isWhole_digitsOf (units / 10 ^ places)
  have value : (units : ℚ) / 10 ^ places =
      (units / 10 ^ places : Nat) +
        readFraction (paddedDigits places (units % 10 ^ places)) := by
    rw [readFraction, ofDigitChars_paddedDigits, length]
    have parts : ((10 ^ places * (units / 10 ^ places) + units % 10 ^ places : Nat) : ℚ) =
        units := by
      rw [Nat.div_add_mod]
    rw [← parts]
    push_cast
    field_simp
  have trimmed (sign : List Char) (pointless : '.' ∉ sign) :
      trimFraction (sign ++ (digitsOf (units / 10 ^ places) ++
          '.' :: paddedDigits places (units % 10 ^ places))) =
        if Binary64.dropTrailingZeros (paddedDigits places (units % 10 ^ places)) = [] then
          sign ++ digitsOf (units / 10 ^ places)
        else sign ++ digitsOf (units / 10 ^ places) ++
          '.' :: Binary64.dropTrailingZeros (paddedDigits places (units % 10 ^ places)) := by
    rw [← List.append_assoc]
    refine trimFraction_append (fun point => ?_) (digits.not_mem rfl)
    exact (List.mem_append.mp point).elim pointless (whole.not_mem rfl)
  rw [value, ← readFraction_dropTrailingZeros]
  -- If the fraction consists of zeros, the point is dropped with them.
  by_cases none : Binary64.dropTrailingZeros (paddedDigits places (units % 10 ^ places)) = []
  · refine ⟨_, .whole whole, ?_, fun sign pointless => ?_⟩
    · rw [readMagnitude_whole whole.toIsDigits, ofDigitChars_digitsOf, none]
      simp [readFraction]
    · rw [trimmed sign pointless, if_pos none]
  · have rest := isFraction_dropTrailingZeros digits length.le none
    refine ⟨_, .fraction whole rest, ?_, fun sign pointless => ?_⟩
    · rw [readMagnitude_fraction whole.toIsDigits, ofDigitChars_digitsOf]
    · rw [trimmed sign pointless, if_neg none, List.append_assoc]

section FixedPlaces

variable {number : Binary64} {value : ℚ} (finite : number.toRat? = some value)

include finite

theorem fixedText_eq (places : Nat) :
    number.fixedText places = (if number.isNegative then ['-'] else []) ++
      (digitsOf (Binary64.roundQuotient (value.num.natAbs * 10 ^ places) value.den / 10 ^ places) ++
        '.' :: paddedDigits places
          (Binary64.roundQuotient (value.num.natAbs * 10 ^ places) value.den % 10 ^ places)) := by
  have power : powerOfTen places = 10 ^ places := rfl
  obtain ⟨negative, significand, exponent, canonical, rfl⟩ := Binary64.exists_eq_finite finite
  simp only [Binary64.fixedText, finite, Option.getD_some, power]
  split
  · rfl
  · rfl

/-- A value has the sign of its number. -/
theorem eq_signed_abs : value = if number.isNegative then -|value| else |value| := by
  obtain ⟨negative, significand, exponent, canonical, rfl⟩ := Binary64.exists_eq_finite finite
  rw [← Option.some_inj.mp finite]
  cases negative <;> simp [Binary64.isNegative]

theorem eq_of_toInt? {whole : Int} (integer : number.toInt? = some whole) : value = whole := by
  simp only [Binary64.toInt?, finite] at integer
  split at integer
  next unfractioned =>
    rw [← Option.some_inj.mp integer]
    exact (Rat.den_eq_one_iff value).mp unfractioned |>.symm
  next => contradiction

/-- The fixed places of a number, without the zeros at the end, write the number. -/
theorem writes_trimFraction (positive : 0 < places) :
    Writes places (trimFraction (number.fixedText places)) value := by
  obtain ⟨magnitude, concise, equal, trimmed⟩ :=
    exists_magnitude positive (Binary64.roundQuotient (value.num.natAbs * 10 ^ places) value.den)
  have nearest : NearestInt (|value| * 10 ^ places)
      (Binary64.roundQuotient (value.num.natAbs * 10 ^ places) value.den : Nat) := by
    have nearest := NearestInt.of_nearest
      (@Binary64.nearest_roundQuotient (value.num.natAbs * 10 ^ places) _ value.den_pos)
    rw [← Binary64.natAbs_num_div_den_eq_abs]
    convert nearest using 1
    push_cast
    ring
  have sign := eq_signed_abs finite
  rw [fixedText_eq finite]
  split at sign
  next below =>
    rw [if_pos below, trimmed ['-'] (by decide), sign]
    exact .of_magnitude_neg concise equal nearest
  next above =>
    rw [if_neg above, trimmed [] List.not_mem_nil, sign]
    exact .of_magnitude concise equal nearest

end FixedPlaces

/-! ## Numerals -/

/-- The numeral of a finite number writes it to six places. -/
theorem exists_numeral {number : Number} (finite : number.IsFinite) :
    ∃ text, numeral number = .ok text ∧ Writes 6 text.toList number.value := by
  cases number with
  | int value =>
      cases rounded : Binary64.ofInt value with
      | error cause =>
          rw [Number.IsFinite, rounded] at finite
          contradiction
      | ok nearest =>
          refine ⟨_, bind_eq_ok.mpr ⟨nearest, rounded, rfl⟩, ?_⟩
          rw [String.toList_ofList]
          exact writes_integerText 6 value
  | real value =>
      obtain ⟨exact, finite⟩ := Binary64.isFinite_iff.mp finite
      rw [Number.value_real finite]
      simp only [numeral]
      split
      next whole integer =>
        refine ⟨_, rfl, ?_⟩
        rw [String.toList_ofList, eq_of_toInt? finite integer]
        exact writes_integerText 6 whole
      next =>
        refine ⟨_, rfl, ?_⟩
        rw [String.toList_ofList]
        exact writes_trimFraction finite (by decide)

/-- A number whose numeral is a decimal. -/
def HasDecimal (number : Number) : Prop :=
  ∃ text, numeral number = .ok text ∧ IsDecimal text.toList

/-- The numeral of a finite number is a decimal. -/
theorem hasDecimal_of_isFinite (finite : value.IsFinite) : HasDecimal (.real value) := by
  obtain ⟨text, written, writes⟩ := @exists_numeral (.real value) finite
  exact ⟨text, written, writes.concise.isDecimal⟩

/-- The values that are not finite have words for numerals. -/
theorem numeral_of_not_isFinite (notFinite : ¬value.IsFinite) :
    ∃ word ∈ ["nan", "inf", "-inf"], numeral (.real value) = .ok word := by
  cases value with
  | nan => exact ⟨"nan", by simp, by decide +kernel⟩
  | infinite negative =>
      cases negative with
      | false => exact ⟨"inf", by simp, by decide +kernel⟩
      | true => exact ⟨"-inf", by simp, by decide +kernel⟩
  | finite => exact absurd rfl notFinite

/-- The words are no decimals: each has a letter in it. -/
theorem not_isDecimal_of_word {word : String} (listed : word ∈ ["nan", "inf", "-inf"]) :
    ¬IsDecimal word.toList := by
  have letter : ∀ word ∈ ["nan", "inf", "-inf"], 'n' ∈ word.toList := by decide +kernel
  intro decimal
  exact absurd (decimal.isDigit_or (letter word listed)) (by decide)

/-- The numeral of a number is a decimal exactly if the number is finite. -/
theorem hasDecimal_iff : HasDecimal number ↔ number.IsFinite := by
  constructor
  · rintro ⟨text, written, decimal⟩
    cases number with
    | int value =>
        obtain ⟨rounded, small, -⟩ := bind_eq_ok.mp written
        rw [Number.IsFinite, small]
        rfl
    | real value =>
        by_contra notFinite
        obtain ⟨word, listed, written'⟩ := numeral_of_not_isFinite notFinite
        cases written'.symm.trans written
        exact not_isDecimal_of_word listed decimal
  · intro finite
    obtain ⟨text, written, writes⟩ := exists_numeral finite
    exact ⟨text, written, writes.concise.isDecimal⟩

/-! ## Windows -/

/-- A window between finite times is written with their numerals. -/
theorem exists_enableWindow {start finish : Number} (finite : start.IsFinite)
    (finite' : finish.IsFinite) :
    ∃ first last, numeral start = .ok first ∧ numeral finish = .ok last ∧
      Writes 6 first.toList start.value ∧ Writes 6 last.toList finish.value ∧
      enableWindow start finish = .ok ("between(t," ++ first ++ "," ++ last ++ ")") := by
  obtain ⟨first, written, writes⟩ := exists_numeral finite
  obtain ⟨last, written', writes'⟩ := exists_numeral finite'
  exact ⟨first, last, written, written', writes, writes',
    bind_eq_ok.mpr ⟨first, written, bind_eq_ok.mpr ⟨last, written', rfl⟩⟩⟩

/-- Finite numbers are written to six places, and numbers in order are written in order: no window
between two times is turned around. -/
theorem numerals_ordered {low high : Binary64} {exact exact' : ℚ} (finite : low.toRat? = some exact)
    (finite' : high.toRat? = some exact') :
    ∃ first last, numeral (.real low) = .ok first ∧ numeral (.real high) = .ok last ∧
      Writes 6 first.toList exact ∧ Writes 6 last.toList exact' ∧
      enableWindow (.real low) (.real high) =
        .ok ("between(t," ++ first ++ "," ++ last ++ ")") ∧
      (low ≤ high → readDecimal first.toList ≤ readDecimal last.toList) := by
  obtain ⟨first, last, written, written', writes, writes', window⟩ :=
    @exists_enableWindow (.real low) (.real high) (Binary64.isFinite_iff.mpr ⟨exact, finite⟩)
      (Binary64.isFinite_iff.mpr ⟨exact', finite'⟩)
  rw [Number.value_real finite] at writes
  rw [Number.value_real finite'] at writes'
  exact ⟨first, last, written, written', writes, writes', window, fun atMost =>
    writes.mono writes' ((Binary64.le_iff_of_toRat? finite finite').mp atMost)⟩

/-- Both numbers lie half-way between two millionths; the first is written below, the second
above. -/
theorem numerals_halfway :
    (0.0078125 : Binary64).toRat? = some (1 / 128) ∧
      (0.0234375 : Binary64).toRat? = some (3 / 128) ∧
      ∃ first last, numeral (.real 0.0078125) = .ok first ∧
        numeral (.real 0.0234375) = .ok last ∧
        Writes 6 first.toList (1 / 128) ∧ Writes 6 last.toList (3 / 128) ∧
        enableWindow (.real 0.0078125) (.real 0.0234375) =
          .ok ("between(t," ++ first ++ "," ++ last ++ ")") ∧
        ((0.0078125 : Binary64) ≤ 0.0234375 →
          readDecimal first.toList ≤ readDecimal last.toList) := by
  have low : (0.0078125 : Binary64).toRat? = some (1 / 128) := by decide +kernel
  have high : (0.0234375 : Binary64).toRat? = some (3 / 128) := by decide +kernel
  exact ⟨low, high, numerals_ordered low high⟩

example : enableWindow (.real 0.0078125) (.real 0.0234375) =
    .ok "between(t,0.007812,0.023438)" := by decide +kernel

end Filter

end Montage
