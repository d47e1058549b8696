import Mathlib
import Montage.Command

/-!
# Words for missing values

A word for a missing value is found wherever it stands in a text, also across the border of two
parts. It cannot stand there if one of the parts has a character at the border that no such word is
written with. Filters put such characters around everything that they take over.
-/

namespace Montage

namespace Text

/-- A part occurs in a text if it stands there without a gap. -/
theorem occursIn_iff {part text : List Char} : occursIn part text = true ↔ part <:+: text := by
  induction text with
  | nil => rw [occursIn, List.isEmpty_iff, List.infix_nil]
  | cons character rest ih =>
      rw [occursIn, Bool.or_eq_true, ih, List.isPrefixOf_iff_prefix, List.infix_cons_iff]

/-- A word does not reach beyond a character that it does not hold. -/
theorem infix_append_cons_iff {α : Type} {word left right : List α} {mark : α}
    (foreign : mark ∉ word) :
    word <:+: left ++ mark :: right ↔ word <:+: left ∨ word <:+: right := by
  constructor
  · rintro ⟨before, after, split⟩
    rcases List.append_eq_append_iff.mp split with ⟨rest, whole, -⟩ | ⟨rest, whole, tail⟩
    · exact .inl ⟨before, rest, whole.symm⟩
    · cases rest with
      | nil =>
          rw [List.append_nil] at whole
          exact .inl ⟨before, [], by rw [List.append_nil, whole]⟩
      | cons first rest =>
          obtain ⟨rfl, rfl⟩ := List.cons.inj tail
          -- The mark is no character of the word, so it stands in front of it.
          rcases List.append_eq_append_iff.mp whole with ⟨between, -, word'⟩ | ⟨between, -, back⟩
          · exact absurd (word' ▸ List.mem_append_right _ List.mem_cons_self) foreign
          · cases between with
            | nil =>
                rw [List.nil_append] at back
                exact absurd (back ▸ List.mem_cons_self) foreign
            | cons other between =>
                obtain ⟨-, rfl⟩ := List.cons.inj back
                exact .inr ⟨between, after, rfl⟩
  · rintro (inLeft | inRight)
    · exact inLeft.trans (List.prefix_append _ _).isInfix
    · exact (inRight.trans (List.suffix_cons _ _).isInfix).trans (List.suffix_append _ _).isInfix

end Text

/-! ## Mentions -/

/-- A text in which a word for a missing value stands. -/
def Mentions (text : String) : Prop :=
  ∃ word ∈ missingWords, word.toList <:+: text.toList

variable {text left right glue separator : String} {texts : List String}

theorem mentions_iff_any : Mentions text ↔
    (missingWords.any fun word => Text.occursIn word.toList text.toList) = true := by
  simp only [Mentions, List.any_eq_true, Text.occursIn_iff]

instance (text : String) : Decidable (Mentions text) :=
  decidable_of_iff _ mentions_iff_any.symm

/-- A text that mentions nothing, in the form that simplification takes. -/
theorem mentions_eq_false (quiet : ¬Mentions text) : Mentions text ↔ False :=
  iff_false_intro quiet

theorem not_mentions_empty : ¬Mentions "" := by decide

/-- Holds of the characters that no word for a missing value is written with. -/
def isMark (character : Char) : Bool :=
  missingWords.all fun word => !word.toList.contains character

theorem not_mem_of_isMark {character : Char} {word : String} (mark : isMark character = true)
    (listed : word ∈ missingWords) : character ∉ word.toList := by
  simpa using List.all_eq_true.mp mark word listed

/-- A mark divides a text into parts that mention on their own. -/
theorem mentions_of_split {mark : Char} (foreign : isMark mark = true)
    (split : text.toList = left.toList ++ mark :: right.toList) :
    Mentions text ↔ Mentions left ∨ Mentions right := by
  simp only [Mentions, split, ← exists_or, ← and_or_left]
  refine exists_congr fun word => and_congr_right fun listed => ?_
  exact Text.infix_append_cons_iff (not_mem_of_isMark foreign listed)

theorem mentions_cons {mark : Char} (foreign : isMark mark = true)
    (split : text.toList = mark :: right.toList) : Mentions text ↔ Mentions right := by
  have divided : Mentions text ↔ Mentions "" ∨ Mentions right := mentions_of_split foreign split
  rw [divided, or_iff_right not_mentions_empty]

/-- A text of marks mentions nothing. -/
theorem not_mentions_of_marks (marks : ∀ character ∈ text.toList, isMark character = true) :
    ¬Mentions text := by
  rintro ⟨word, listed, stands⟩
  have letters : ∀ word ∈ missingWords, word.toList ≠ [] := by decide
  obtain ⟨letter, rest, spelled⟩ := List.exists_cons_of_ne_nil (letters word listed)
  have member : letter ∈ word.toList := spelled ▸ List.mem_cons_self
  exact not_mem_of_isMark (marks letter (stands.subset member)) listed member

/-! ## Borders -/

/-- A text that begins with a mark. -/
def BeginsMarked (text : String) : Prop :=
  text.toList.head?.any isMark = true

instance (text : String) : Decidable (BeginsMarked text) :=
  inferInstanceAs (Decidable (text.toList.head?.any isMark = true))

/-- A text that ends with a mark. -/
def EndsMarked (text : String) : Prop :=
  text.toList.getLast?.any isMark = true

instance (text : String) : Decidable (EndsMarked text) :=
  inferInstanceAs (Decidable (text.toList.getLast?.any isMark = true))

theorem mentions_append_of_begins (begins : BeginsMarked right) :
    Mentions (left ++ right) ↔ Mentions left ∨ Mentions right := by
  obtain ⟨mark, first, foreign⟩ := (Option.any_eq_true _ _).mp begins
  obtain ⟨rest, spelled⟩ := List.head?_eq_some_iff.mp first
  have behind : right.toList = mark :: (String.ofList rest).toList := by
    rw [spelled, String.toList_ofList]
  rw [mentions_cons foreign behind]
  exact mentions_of_split foreign (by rw [String.toList_append, behind])

theorem mentions_append_of_ends (ends : EndsMarked left) :
    Mentions (left ++ right) ↔ Mentions left ∨ Mentions right := by
  obtain ⟨mark, last, foreign⟩ := (Option.any_eq_true _ _).mp ends
  obtain ⟨front, spelled⟩ := List.getLast?_eq_some_iff.mp last
  have before : left.toList = (String.ofList front).toList ++ [mark] := by
    rw [spelled, String.toList_ofList]
  have inLeft : Mentions left ↔ Mentions (String.ofList front) ∨ Mentions "" :=
    mentions_of_split foreign before
  rw [inLeft, or_iff_left not_mentions_empty]
  exact mentions_of_split foreign (by rw [String.toList_append, before, List.append_assoc]; rfl)

theorem EndsMarked.append (ends : EndsMarked glue) (left : String) : EndsMarked (left ++ glue) := by
  obtain ⟨mark, last, foreign⟩ := (Option.any_eq_true _ _).mp ends
  rw [EndsMarked, String.toList_append, List.getLast?_append, last]
  exact foreign

/-- Texts on both sides of one that ends with a mark mention on their own. -/
theorem mentions_append_append (ends : EndsMarked glue) :
    Mentions (left ++ glue ++ right) ↔ Mentions (left ++ glue) ∨ Mentions right :=
  mentions_append_of_ends (ends.append left)

/-- Texts between which a mark stands mention on their own. -/
theorem mentions_intercalate (begins : BeginsMarked separator) (ends : EndsMarked separator)
    (quiet : ¬Mentions separator) :
    Mentions (separator.intercalate texts) ↔ ∃ text ∈ texts, Mentions text := by
  induction texts with
  | nil => simpa using not_mentions_empty
  | cons text rest ih =>
      cases rest with
      | nil => simp
      | cons next rest =>
          rw [String.intercalate_cons_cons, mentions_append_append ends,
            mentions_append_of_begins begins, or_iff_left quiet, ih]
          exact (List.exists_mem_cons_iff _ _ _).symm

end Montage
