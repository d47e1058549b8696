import Montage.Proofs.Binary64.Arithmetic
import Montage.Proofs.Filter.Numeral

/-!
# Decimals in filters

A decimal is a sequence of digits, possibly with a point between two of them and a minus sign before
all of them. Its value does not depend on how it came about. Zeros in front of the other digits, and
zeros at the end of a fraction, do not change the value: a decimal without them has no superfluous
digit.
-/

namespace Montage

variable {text whole fraction : List Char} {character : Char} {places : Nat}

/-! ## Decimals -/

/-- A sequence of digits that is not empty. -/
structure IsDigits (text : List Char) : Prop where
  nonempty : text ≠ []
  digits : ∀ character ∈ text, character.isDigit = true

/-- A decimal without a sign. -/
inductive IsMagnitude : List Char → Prop where
  | whole {whole : List Char} (digits : IsDigits whole) : IsMagnitude whole
  | fraction {whole fraction : List Char} (digits : IsDigits whole) (places : IsDigits fraction) :
      IsMagnitude (whole ++ '.' :: fraction)

/-- A decimal, which is negative if a minus sign stands before it. -/
inductive IsDecimal : List Char → Prop where
  | positive {text : List Char} (magnitude : IsMagnitude text) : IsDecimal text
  | negative {text : List Char} (magnitude : IsMagnitude text) : IsDecimal ('-' :: text)

theorem IsMagnitude.isDigit_or (magnitude : IsMagnitude text) (member : character ∈ text) :
    character.isDigit = true ∨ character = '.' := by
  cases magnitude with
  | whole digits => exact .inl (digits.digits _ member)
  | fraction digits places =>
      rcases List.mem_append.mp member with left | right
      · exact .inl (digits.digits _ left)
      · rcases List.mem_cons.mp right with point | right
        · exact .inr point
        · exact .inl (places.digits _ right)

/-- Besides digits only a point and a minus sign stand in a decimal. -/
theorem IsDecimal.isDigit_or (decimal : IsDecimal text) (member : character ∈ text) :
    character.isDigit = true ∨ character = '.' ∨ character = '-' := by
  cases decimal with
  | positive magnitude => exact (magnitude.isDigit_or member).imp_right .inl
  | negative magnitude =>
      rcases List.mem_cons.mp member with minus | member
      · exact .inr (.inr minus)
      · exact (magnitude.isDigit_or member).imp_right .inl

theorem isDigits_digitsOf (value : Nat) : IsDigits (digitsOf value) where
  nonempty := Nat.toDigits_ne_nil
  digits _ member := Nat.isDigit_of_mem_toDigits (by decide) (by decide) member

theorem isDigits_paddedDigits (width value : Nat) : IsDigits (paddedDigits width value) where
  nonempty := List.append_ne_nil_of_right_ne_nil _ (isDigits_digitsOf value).nonempty
  digits character member := by
    rcases List.mem_append.mp member with zero | digit
    · rw [List.eq_of_mem_replicate zero]
      rfl
    · exact (isDigits_digitsOf value).digits _ digit

/-- An integer is a decimal. -/
theorem isDecimal_integerText (value : Int) : IsDecimal (integerText value) := by
  rw [integerText]
  split
  · exact .negative (.whole (isDigits_digitsOf _))
  · exact .positive (.whole (isDigits_digitsOf _))

/-! ## Values of decimals -/

/-- The value of the digits behind a point. -/
def readFraction (fraction : List Char) : ℚ :=
  Nat.ofDigitChars 10 fraction 0 / 10 ^ fraction.length

/-- The value of a decimal without a sign. -/
def readMagnitude (text : List Char) : ℚ :=
  Nat.ofDigitChars 10 (text.takeWhile (· != '.')) 0 +
    readFraction ((text.dropWhile (· != '.')).drop 1)

/-- The value that a decimal stands for. -/
def readDecimal : List Char → ℚ
  | '-' :: text => -readMagnitude text
  | text => readMagnitude text

theorem IsDigits.not_mem (digits : IsDigits text) {character : Char}
    (other : character.isDigit = false) : character ∉ text := by
  intro member
  rw [digits.digits _ member] at other
  contradiction

theorem IsDigits.ne_point (digits : IsDigits text) :
    ∀ character ∈ text, (character != '.') = true := by
  intro character member
  refine bne_iff_ne.mpr ?_
  rintro rfl
  exact digits.not_mem rfl member

theorem readMagnitude_whole (digits : IsDigits whole) :
    readMagnitude whole = Nat.ofDigitChars 10 whole 0 := by
  rw [readMagnitude, List.takeWhile_eq_self_iff.mpr digits.ne_point,
    List.dropWhile_eq_nil_iff.mpr digits.ne_point]
  simp [readFraction]

theorem readMagnitude_fraction (digits : IsDigits whole) :
    readMagnitude (whole ++ '.' :: fraction) =
      Nat.ofDigitChars 10 whole 0 + readFraction fraction := by
  rw [readMagnitude, List.takeWhile_append_of_pos digits.ne_point,
    List.dropWhile_append_of_pos digits.ne_point]
  simp

/-- A decimal without a sign has the value of its digits. -/
theorem IsMagnitude.readDecimal_eq (magnitude : IsMagnitude text) :
    readDecimal text = readMagnitude text := by
  simp only [readDecimal]
  split
  next => exact absurd (magnitude.isDigit_or List.mem_cons_self) (by decide)
  next => rfl

@[simp] theorem ofDigitChars_digitsOf (value : Nat) :
    Nat.ofDigitChars 10 (digitsOf value) 0 = value :=
  Nat.ofDigitChars_ten_toDigits

@[simp] theorem ofDigitChars_paddedDigits (width value : Nat) :
    Nat.ofDigitChars 10 (paddedDigits width value) 0 = value := by
  rw [paddedDigits, Nat.ofDigitChars_append, Nat.ofDigitChars_replicate_zero, Nat.mul_zero,
    ofDigitChars_digitsOf]

/-! ## Superfluous digits -/

/-- Digits before a point. No zero stands in front of others. -/
structure IsWhole (text : List Char) : Prop extends IsDigits text where
  unpadded : text.head? = some '0' → text = ['0']

/-- At most so many digits behind a point. The last one is no zero. -/
structure IsFraction (places : Nat) (text : List Char) : Prop extends IsDigits text where
  length_le : text.length ≤ places
  trimmed : text.getLast? ≠ some '0'

/-- A decimal without a sign that has at most so many places and no superfluous digit. -/
inductive IsConciseMagnitude (places : Nat) : List Char → Prop where
  | whole {whole : List Char} (digits : IsWhole whole) : IsConciseMagnitude places whole
  | fraction {whole fraction : List Char} (digits : IsWhole whole)
      (rest : IsFraction places fraction) :
      IsConciseMagnitude places (whole ++ '.' :: fraction)

/-- A decimal that has at most so many places and no superfluous digit. -/
inductive IsConcise (places : Nat) : List Char → Prop where
  | positive {text : List Char} (magnitude : IsConciseMagnitude places text) :
      IsConcise places text
  | negative {text : List Char} (magnitude : IsConciseMagnitude places text) :
      IsConcise places ('-' :: text)

theorem IsConciseMagnitude.isMagnitude (concise : IsConciseMagnitude places text) :
    IsMagnitude text := by
  cases concise with
  | whole digits => exact .whole digits.toIsDigits
  | fraction digits rest => exact .fraction digits.toIsDigits rest.toIsDigits

theorem IsConcise.isDecimal (concise : IsConcise places text) : IsDecimal text := by
  cases concise with
  | positive magnitude => exact .positive magnitude.isMagnitude
  | negative magnitude => exact .negative magnitude.isMagnitude

theorem isWhole_digitsOf (value : Nat) : IsWhole (digitsOf value) where
  toIsDigits := isDigits_digitsOf value
  unpadded := by
    induction value using Nat.strong_induction_on with
    | _ value ih =>
        intro zero
        rw [digitsOf, Nat.toDigits_eq_if (by decide)] at zero ⊢
        split at zero
        next small => rw [if_pos small]; simpa using zero
        next large =>
          -- The digits in front would be a zero by themselves, but their value is positive.
          have front : (digitsOf (value / 10)).head? = some '0' := by
            rwa [List.head?_append_of_ne_nil _ Nat.toDigits_ne_nil] at zero
          have none := congrArg (Nat.ofDigitChars 10 · 0) (ih _ (by omega) front)
          rw [ofDigitChars_digitsOf] at none
          change value / 10 = 0 at none
          omega

theorem length_paddedDigits {value : Nat} (positive : 0 < places) (small : value < 10 ^ places) :
    (paddedDigits places value).length = places := by
  have short : (digitsOf value).length ≤ places :=
    (Nat.length_toDigits_le_iff (by decide) positive).mpr small
  rw [paddedDigits, List.length_append, List.length_replicate]
  omega

/-- Zeros at the end of a fraction do not count. -/
theorem readFraction_dropTrailingZeros (fraction : List Char) :
    readFraction (Binary64.dropTrailingZeros fraction) = readFraction fraction := by
  have parts : Binary64.dropTrailingZeros fraction ++
      List.replicate (fraction.reverse.takeWhile (· == '0')).length '0' = fraction := by
    have zeros : (fraction.reverse.takeWhile (· == '0')).reverse =
        List.replicate (fraction.reverse.takeWhile (· == '0')).length '0' :=
      List.eq_replicate_iff.mpr ⟨List.length_reverse, fun character member => by
        simpa using List.mem_takeWhile_imp (List.mem_reverse.mp member)⟩
    rw [← zeros, Binary64.dropTrailingZeros, ← List.reverse_append,
      List.takeWhile_append_dropWhile, List.reverse_reverse]
  conv_rhs => rw [← parts]
  rw [readFraction, readFraction, Nat.ofDigitChars_append, Nat.ofDigitChars_replicate_zero,
    List.length_append, List.length_replicate]
  push_cast
  rw [pow_add]
  field_simp

/-- What is left of a fraction without the zeros at its end. -/
theorem isFraction_dropTrailingZeros (digits : IsDigits fraction) (length : fraction.length ≤ places)
    (some : Binary64.dropTrailingZeros fraction ≠ []) :
    IsFraction places (Binary64.dropTrailingZeros fraction) where
  nonempty := some
  digits character member :=
    digits.digits _ ((List.rdropWhile_prefix _ fraction).subset member)
  length_le := (List.rdropWhile_prefix _ fraction).length_le.trans length
  trimmed := by
    intro zero
    have last := List.rdropWhile_last_not (· == '0') fraction some
    rw [List.getLast?_eq_some_getLast some, Option.some.injEq] at zero
    exact last (beq_iff_eq.mpr zero)

/-! ## Numbers with a value -/

/-- Holds of the finite numbers. An integer counts as finite within the range of the others. -/
def Number.IsFinite : Number → Prop
  | .int value => (Binary64.ofInt value).isOk = true
  | .real value => value.IsFinite

instance (number : Number) : Decidable number.IsFinite :=
  match number with
  | .int value => inferInstanceAs (Decidable ((Binary64.ofInt value).isOk = true))
  | .real value => inferInstanceAs (Decidable value.IsFinite)

@[simp] theorem Number.isFinite_real {value : Binary64} :
    (Number.real value).IsFinite ↔ value.IsFinite := Iff.rfl

/-- Zero is finite. -/
theorem Number.isFinite_of_isZero {number : Number} (zero : number.isZero = true) :
    number.IsFinite := by
  cases number with
  | int value =>
      obtain rfl := beq_iff_eq.mp zero
      decide +kernel
  | real value =>
      cases value with
      | nan => contradiction
      | infinite => contradiction
      | finite => rfl

end Montage
