import Mathlib
import Montage.Binary64

/-!
# The order of binary64 numbers

Every binary64 number but the one value that is no number has a rank: a rational or one of two
ends. The comparisons compare ranks, so the laws of a linear order hold wherever ranks exist.
-/

namespace Montage.Binary64

/-- The ranks of numbers: the rationals between two ends. -/
abbrev Rank : Type := WithBot (WithTop ℚ)

/-- The rank of a rational. -/
def Rank.ofRat (value : ℚ) : Rank :=
  ((value : WithTop ℚ) : WithBot (WithTop ℚ))

@[simp] theorem Rank.ofRat_lt_ofRat {low high : ℚ} : ofRat low < ofRat high ↔ low < high := by
  rw [ofRat, ofRat, WithBot.coe_lt_coe, WithTop.coe_lt_coe]

@[simp] theorem Rank.ofRat_le_ofRat {low high : ℚ} : ofRat low ≤ ofRat high ↔ low ≤ high := by
  rw [ofRat, ofRat, WithBot.coe_le_coe, WithTop.coe_le_coe]

@[simp] theorem Rank.ofRat_inj {low high : ℚ} : ofRat low = ofRat high ↔ low = high := by
  rw [ofRat, ofRat, WithBot.coe_inj, WithTop.coe_inj]

@[simp] theorem Rank.bot_lt_ofRat (value : ℚ) : (⊥ : Rank) < ofRat value :=
  WithBot.bot_lt_coe _

@[simp] theorem Rank.ofRat_lt_top (value : ℚ) : ofRat value < (⊤ : Rank) :=
  WithBot.coe_lt_coe.mpr (WithTop.coe_lt_top value)

@[simp] theorem Rank.bot_ne_ofRat (value : ℚ) : ⊥ ≠ ofRat value :=
  (bot_lt_ofRat value).ne

@[simp] theorem Rank.top_ne_ofRat (value : ℚ) : ⊤ ≠ ofRat value :=
  (ofRat_lt_top value).ne'

/-- The rank of a number. The value that is no number has none. -/
def rank? : Binary64 → Option Rank
  | .nan => none
  | .infinite true => some ⊥
  | .infinite false => some ⊤
  | .finite negative significand exponent canonical =>
      (Binary64.finite negative significand exponent canonical).toRat?.map Rank.ofRat

variable {first second third : Binary64} {low high : ℚ}

/-- Every finite number has a value. -/
theorem exists_toRat? (negative : Bool) (significand : Nat) (exponent : Int)
    (canonical : Canonical significand exponent) :
    ∃ value, (finite negative significand exponent canonical).toRat? = some value :=
  ⟨_, rfl⟩

/-- Holds of the numbers that have a value. -/
def IsFinite (number : Binary64) : Prop :=
  number.toRat?.isSome = true

instance (number : Binary64) : Decidable number.IsFinite :=
  inferInstanceAs (Decidable (number.toRat?.isSome = true))

theorem isFinite_iff : first.IsFinite ↔ ∃ value, first.toRat? = some value :=
  Option.isSome_iff_exists

theorem rank?_eq_none : first.rank? = none ↔ first = .nan := by
  cases first with
  | nan => simp [rank?]
  | infinite negative => cases negative <;> simp [rank?]
  | finite => simp [rank?, toRat?]

/-- The rank of a finite number is its value. -/
theorem rank?_of_toRat? (finite : first.toRat? = some low) :
    first.rank? = some (Rank.ofRat low) := by
  cases first with
  | nan => simp [toRat?] at finite
  | infinite => simp [toRat?] at finite
  | finite => rw [rank?, finite, Option.map_some]

/-- Only finite numbers have ranks between the ends. -/
theorem rank?_eq_ofRat : first.rank? = some (Rank.ofRat low) ↔ first.toRat? = some low := by
  cases first with
  | nan => simp [rank?, toRat?]
  | infinite negative => cases negative <;> simp [rank?, toRat?]
  | finite => simp [rank?]

/-! ## Comparisons -/

/-- The strict order is that of the ranks. -/
theorem lt_iff_rank? :
    first < second ↔ ∃ low ∈ first.rank?, ∃ high ∈ second.rank?, low < high := by
  change first.lessThan second = true ↔ _
  cases first with
  | nan => simp [lessThan, rank?]
  | infinite negative =>
      cases second with
      | nan => simp [lessThan, rank?]
      | infinite negative' => cases negative <;> cases negative' <;> simp [lessThan, rank?]
      | finite negative' significand exponent canonical =>
          obtain ⟨high, value⟩ := exists_toRat? negative' significand exponent canonical
          cases negative <;> simp [lessThan, rank?, value]
  | finite negative significand exponent canonical =>
      obtain ⟨low, value⟩ := exists_toRat? negative significand exponent canonical
      cases second with
      | nan => simp [lessThan, rank?]
      | infinite negative' => cases negative' <;> simp [lessThan, rank?, value]
      | finite negative' significand' exponent' canonical' =>
          obtain ⟨high, value'⟩ := exists_toRat? negative' significand' exponent' canonical'
          simp [lessThan, rank?, value, value']

/-- Numeric equality is equality of ranks. -/
theorem equals_iff_rank? :
    first.equals second = true ↔ ∃ low ∈ first.rank?, ∃ high ∈ second.rank?, low = high := by
  cases first with
  | nan => simp [equals, rank?]
  | infinite negative =>
      cases second with
      | nan => simp [equals, rank?]
      | infinite negative' => cases negative <;> cases negative' <;> simp [equals, rank?]
      | finite negative' significand exponent canonical =>
          obtain ⟨high, value⟩ := exists_toRat? negative' significand exponent canonical
          cases negative with
          | false => simp [equals, rank?, value, (Rank.top_ne_ofRat high).symm]
          | true => simp [equals, rank?, value, (Rank.bot_ne_ofRat high).symm]
  | finite negative significand exponent canonical =>
      obtain ⟨low, value⟩ := exists_toRat? negative significand exponent canonical
      cases second with
      | nan => simp [equals, rank?]
      | infinite negative' => cases negative' <;> simp [equals, rank?, value]
      | finite negative' significand' exponent' canonical' =>
          obtain ⟨high, value'⟩ := exists_toRat? negative' significand' exponent' canonical'
          simpa [equals, rank?, value, value'] using eq_comm

theorem le_iff_lt_or_equals : first ≤ second ↔ first < second ∨ first.equals second = true :=
  Bool.or_eq_true _ _ ▸ Iff.rfl

/-- The order is that of the ranks. -/
theorem le_iff_rank? :
    first ≤ second ↔ ∃ low ∈ first.rank?, ∃ high ∈ second.rank?, low ≤ high := by
  rw [le_iff_lt_or_equals, lt_iff_rank?, equals_iff_rank?]
  constructor
  · rintro (⟨low, lowRank, high, highRank, less⟩ | ⟨low, lowRank, high, highRank, equal⟩)
    · exact ⟨low, lowRank, high, highRank, less.le⟩
    · exact ⟨low, lowRank, high, highRank, equal.le⟩
  · rintro ⟨low, lowRank, high, highRank, atMost⟩
    rcases atMost.lt_or_eq with less | equal
    · exact .inl ⟨low, lowRank, high, highRank, less⟩
    · exact .inr ⟨low, lowRank, high, highRank, equal⟩

/-- Finite numbers compare as their values. -/
theorem le_iff_of_toRat? (finite : first.toRat? = some low) (finite' : second.toRat? = some high) :
    first ≤ second ↔ low ≤ high := by
  simp [le_iff_rank?, rank?_of_toRat? finite, rank?_of_toRat? finite']

theorem lt_iff_of_toRat? (finite : first.toRat? = some low) (finite' : second.toRat? = some high) :
    first < second ↔ low < high := by
  simp [lt_iff_rank?, rank?_of_toRat? finite, rank?_of_toRat? finite']

/-- A number between two finite numbers is finite. -/
theorem isFinite_of_le_of_le (atLeast : first ≤ second) (atMost : second ≤ third)
    (low : first.IsFinite) (high : third.IsFinite) : second.IsFinite := by
  obtain ⟨least, value⟩ := isFinite_iff.mp low
  obtain ⟨greatest, value'⟩ := isFinite_iff.mp high
  cases second with
  | nan => simp [le_iff_rank?, rank?] at atLeast
  | finite => rfl
  | infinite negative =>
      cases negative with
      | false =>
          rw [le_iff_rank?, rank?_of_toRat? value'] at atMost
          simp [rank?, (Rank.top_ne_ofRat greatest).symm] at atMost
      | true =>
          rw [le_iff_rank?, rank?_of_toRat? value] at atLeast
          simp [rank?, (Rank.bot_ne_ofRat least).symm] at atLeast

theorem lt_of_le_of_lt (atMost : first ≤ second) (less : second < third) : first < third := by
  obtain ⟨low, lowRank, middle, middleRank, atMost⟩ := le_iff_rank?.mp atMost
  obtain ⟨middle', middleRank', high, highRank, less⟩ := lt_iff_rank?.mp less
  cases Option.mem_unique middleRank middleRank'
  exact lt_iff_rank?.mpr ⟨low, lowRank, high, highRank, atMost.trans_lt less⟩

theorem lt_of_lt_of_le (less : first < second) (atMost : second ≤ third) : first < third := by
  obtain ⟨low, lowRank, middle, middleRank, less⟩ := lt_iff_rank?.mp less
  obtain ⟨middle', middleRank', high, highRank, atMost⟩ := le_iff_rank?.mp atMost
  cases Option.mem_unique middleRank middleRank'
  exact lt_iff_rank?.mpr ⟨low, lowRank, high, highRank, less.trans_le atMost⟩

theorem le_of_lt (less : first < second) : first ≤ second :=
  le_iff_lt_or_equals.mpr (.inl less)

/-- Numbers that compare at all are none of them the value that is no number. -/
theorem ne_nan_of_le (atMost : first ≤ second) : first ≠ .nan ∧ second ≠ .nan := by
  obtain ⟨low, lowRank, high, highRank, -⟩ := le_iff_rank?.mp atMost
  constructor
  · rintro rfl
    contradiction
  · rintro rfl
    contradiction

theorem ne_nan_of_lt (less : first < second) : first ≠ .nan ∧ second ≠ .nan :=
  ne_nan_of_le (le_of_lt less)

theorem exists_rank? (number : first ≠ .nan) : ∃ rank, rank ∈ first.rank? :=
  Option.ne_none_iff_exists'.mp (rank?_eq_none.not.mpr number)

theorem le_self (number : first ≠ .nan) : first ≤ first := by
  obtain ⟨rank, ranked⟩ := exists_rank? number
  exact le_iff_rank?.mpr ⟨rank, ranked, rank, ranked, le_rfl⟩

theorem not_lt_of_le (atMost : first ≤ second) : ¬second < first := by
  intro less
  obtain ⟨low, lowRank, high, highRank, less⟩ := lt_iff_rank?.mp (lt_of_le_of_lt atMost less)
  cases Option.mem_unique lowRank highRank
  exact lt_irrefl _ less

/-- Of two numbers that are not in order the other one is less. -/
theorem lt_of_not_le (number : first ≠ .nan) (number' : second ≠ .nan)
    (unordered : ¬first ≤ second) : second < first := by
  obtain ⟨low, lowRank⟩ := exists_rank? number
  obtain ⟨high, highRank⟩ := exists_rank? number'
  refine lt_iff_rank?.mpr ⟨high, highRank, low, lowRank, ?_⟩
  by_contra atMost
  exact unordered (le_iff_rank?.mpr ⟨low, lowRank, high, highRank, not_lt.mp atMost⟩)

/-- Of two numbers of which the first is not less the second is at most the first. -/
theorem le_of_not_lt (number : first ≠ .nan) (number' : second ≠ .nan)
    (unordered : ¬first < second) : second ≤ first := by
  obtain ⟨low, lowRank⟩ := exists_rank? number
  obtain ⟨high, highRank⟩ := exists_rank? number'
  refine le_iff_rank?.mpr ⟨high, highRank, low, lowRank, ?_⟩
  by_contra less
  exact unordered (lt_iff_rank?.mpr ⟨low, lowRank, high, highRank, not_le.mp less⟩)

end Montage.Binary64
