import Mathlib
import Montage.Filter.Statement

/-!
# Characters of numbers and names

Numbers are written with digits, letters, signs and points, however they are written. Labels hold
digits, letters, underscores and colons.
-/

namespace Montage

/-- The characters that numbers and labels are written with. -/
def isPlain (character : Char) : Bool :=
  character.isAlphanum || character == '-' || character == '+' || character == '.' ||
    character == '_' || character == ':'

/-- A text of plain characters. -/
def Plain (text : List Char) : Prop :=
  text.all isPlain = true

instance (text : List Char) : Decidable (Plain text) :=
  inferInstanceAs (Decidable (text.all isPlain = true))

namespace Plain

variable {text more : List Char}

theorem iff_forall_mem : Plain text ↔ ∀ character ∈ text, isPlain character = true :=
  List.all_eq_true

theorem append (left : Plain text) (right : Plain more) : Plain (text ++ more) :=
  iff_forall_mem.mpr (List.forall_mem_append.mpr ⟨iff_forall_mem.mp left, iff_forall_mem.mp right⟩)

theorem cons {character : Char} (first : isPlain character = true) (rest : Plain text) :
    Plain (character :: text) :=
  iff_forall_mem.mpr (List.forall_mem_cons.mpr ⟨first, iff_forall_mem.mp rest⟩)

theorem mono (plain : Plain more) (subset : text ⊆ more) : Plain text :=
  iff_forall_mem.mpr fun character member => iff_forall_mem.mp plain character (subset member)

/-- A plain text holds no other character. -/
theorem not_mem {character : Char} (plain : Plain text) (other : isPlain character = false) :
    character ∉ text := by
  intro member
  rw [iff_forall_mem.mp plain character member] at other
  contradiction

end Plain

/-! ## Digits -/

theorem plain_digitsOf (value : Nat) : Plain (digitsOf value) := by
  refine Plain.iff_forall_mem.mpr fun digit member => ?_
  have decimal := Nat.isDigit_of_mem_toDigits (by decide) (by decide) member
  simp [isPlain, Char.isAlphanum, decimal]

theorem plain_natText (value : Nat) : Plain (toString value).toList := by
  rw [Nat.toString_eq_repr, Nat.toList_repr]
  exact plain_digitsOf value

theorem plain_intText (value : Int) : Plain (toString value).toList := by
  cases value with
  | ofNat value => exact plain_natText value
  | negSucc value =>
      have minus : toString (Int.negSucc value) = "-" ++ toString (value + 1) := rfl
      rw [minus, String.toList_append]
      exact .append (by decide +kernel) (plain_natText (value + 1))

theorem plain_integerText (value : Int) : Plain (integerText value) := by
  simp only [integerText]
  split
  · exact .cons rfl (plain_digitsOf _)
  · exact plain_digitsOf _

theorem plain_zeros (count : Nat) : Plain (List.replicate count '0') := by
  refine Plain.iff_forall_mem.mpr fun character member => ?_
  rw [List.eq_of_mem_replicate member]
  rfl

theorem plain_paddedDigits (width value : Nat) : Plain (paddedDigits width value) :=
  (plain_zeros _).append (plain_digitsOf value)

/-! ## Numbers -/

namespace Binary64

theorem plain_dropTrailingZeros {digits : List Char} (plain : Plain digits) :
    Plain (dropTrailingZeros digits) :=
  plain.mono (List.rdropWhile_prefix _ digits).subset

theorem plain_fixedText (places : Nat) (number : Binary64) : Plain (number.fixedText places) := by
  have digits (whole fraction : Nat) : Plain (digitsOf whole ++ '.' :: paddedDigits places fraction) :=
    (plain_digitsOf whole).append (.cons rfl (plain_paddedDigits places fraction))
  have others : Plain "nan".toList ∧ Plain "inf".toList ∧ Plain "-inf".toList := by decide +kernel
  cases number with
  | nan => exact others.1
  | infinite negative =>
      cases negative with
      | false => exact others.2.1
      | true => exact others.2.2
  | finite negative significand exponent canonical =>
      simp only [fixedText]
      split
      · exact .cons rfl (digits _ _)
      · exact digits _ _

theorem plain_write (layout : Layout) {digits : List Char} (plain : Plain digits) (leading : Int) :
    Plain (layout.write digits leading) := by
  simp only [Layout.write]
  split
  · split
    · exact (Plain.append (by decide +kernel) (plain_zeros _)).append plain
    · refine .append (.append (plain.mono (List.take_subset _ _)) (plain_zeros _)) (.cons rfl ?_)
      split
      · decide +kernel
      · exact plain.mono (List.drop_subset _ _)
  · refine .append ?_ (.cons rfl (.cons ?_ (plain_paddedDigits _ _)))
    · split
      · exact plain
      · exact plain
      · obtain ⟨first, rest⟩ := List.forall_mem_cons.mp (Plain.iff_forall_mem.mp plain)
        exact .cons first (.cons rfl (Plain.iff_forall_mem.mpr rest))
    · split <;> rfl

theorem plain_shortestText (number : Binary64) : Plain number.shortestText := by
  have others : Plain "nan".toList ∧ Plain "inf".toList ∧ Plain "-inf".toList := by decide +kernel
  cases number with
  | nan => exact others.1
  | infinite negative =>
      cases negative with
      | false => exact others.2.1
      | true => exact others.2.2
  | finite negative significand exponent canonical =>
      have written (point : GridPoint) (leading : Int) :=
        plain_write readableLayout (plain_dropTrailingZeros (plain_digitsOf point.coefficient)) leading
      have magnitude : Plain (if significand = 0 then "0.0".toList
          else
            let point := shortestPoint significand exponent
            let digits := digitsOf point.coefficient
            let leading := point.exponent + (digits.length : Int) - 1
            readableLayout.write (dropTrailingZeros digits) leading) := by
        split
        · decide +kernel
        · exact written _ _
      simp only [shortestText]
      split
      · exact .cons rfl magnitude
      · exact magnitude

end Binary64

namespace Filter

theorem plain_literal (number : Number) : Plain (literal number).toList := by
  rw [literal, String.toList_ofList]
  cases number with
  | int value => exact plain_integerText value
  | real value => exact value.plain_shortestText

theorem plain_trimFraction {digits : List Char} (plain : Plain digits) :
    Plain (trimFraction digits) :=
  (Binary64.plain_dropTrailingZeros plain).mono (List.rdropWhile_prefix _ _).subset

/-- Every numeral is plain. -/
theorem plain_numeral {number : Number} {text : String} (written : numeral number = .ok text) :
    Plain text.toList := by
  cases number with
  | int value =>
      obtain ⟨rounded, -, equal⟩ := bind_eq_ok.mp written
      cases equal
      rw [String.toList_ofList]
      exact plain_integerText value
  | real value =>
      simp only [numeral] at written
      split at written
      all_goals
        cases written
        rw [String.toList_ofList]
      · exact plain_integerText _
      · exact plain_trimFraction (value.plain_fixedText 6)

/-- A real number has a numeral, whatever it is. -/
theorem numeral_real (value : Binary64) : ∃ text, numeral (.real value) = .ok text := by
  simp only [numeral]
  split
  · exact ⟨_, rfl⟩
  · exact ⟨_, rfl⟩

end Filter

end Montage
