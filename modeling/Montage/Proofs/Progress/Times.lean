import Mathlib
import Montage.Progress

/-!
# Times in texts

A labelled time has a fixed length, so whether one stands at a place of a text is seen from the
characters there. A text with a piece behind it therefore shows the times of the text and those
that the piece completes, and the latter are seen from a short end of the text as well.
-/

namespace Montage

/-! ## Ends of texts -/

section Ends

variable {α : Type} {left right : List α} {count more : Nat}

theorem rtake_of_length_le (short : left.length ≤ count) : left.rtake count = left := by
  rw [List.rtake, Nat.sub_eq_zero_of_le short, List.drop_zero]

theorem rtake_suffix (left : List α) (count : Nat) : left.rtake count <:+ left :=
  List.drop_suffix _ _

/-- The end of a text lies in any part at its end that is long enough. -/
theorem rtake_append_of_le (long : count ≤ right.length) :
    (left ++ right).rtake count = right.rtake count := by
  rw [List.rtake, List.rtake, List.length_append, Nat.add_sub_assoc long, List.drop_append]
  simp

theorem length_rtake_of_le (long : count ≤ left.length) : (left.rtake count).length = count := by
  rw [List.rtake, List.length_drop, Nat.sub_sub_self long]

/-- The end of a text that has been cut to an end at least as long. -/
theorem rtake_rtake_append (atMost : count ≤ more) :
    (left.rtake more ++ right).rtake count = (left ++ right).rtake count := by
  rcases le_total left.length more with short | long
  · rw [rtake_of_length_le short]
  · have parts := List.take_append_drop (left.length - more) left
    conv_rhs => rw [← parts, List.append_assoc]
    refine (rtake_append_of_le ?_).symm
    rw [List.length_append]
    have kept := length_rtake_of_le long
    omega

theorem rtake_rtake (atMost : count ≤ more) :
    (left.rtake more).rtake count = left.rtake count := by
  have same : (left.rtake more ++ []).rtake count = (left ++ []).rtake count :=
    rtake_rtake_append atMost
  simpa using same

end Ends

/-! ## Times in texts -/

namespace ClockTime

variable {keyword text rest piece seen : List Char} {time : ClockTime} {value : Nat} {mark : Char}

theorem takePair?_append (more : List Char) (long : 2 ≤ text.length) :
    takePair? (text ++ more) = (takePair? text).map (Prod.map id (· ++ more)) := by
  match text with
  | first :: second :: rest =>
      simp only [List.cons_append, takePair?]
      cases Text.digitValue? first with
      | none => rfl
      | some tens =>
          cases Text.digitValue? second with
          | none => rfl
          | some units => rfl

theorem length_of_takePair? (pair : takePair? text = some (value, rest)) :
    text.length = rest.length + 2 := by
  simp only [takePair?] at pair
  split at pair
  · simp only [Option.bind_eq_bind, Option.bind_eq_some_iff] at pair
    obtain ⟨tens, -, units, -, equal⟩ := pair
    cases equal
    rfl
  · contradiction

theorem takeMarkedPair?_append (more : List Char) (long : 3 ≤ text.length) :
    takeMarkedPair? mark (text ++ more) =
      (takeMarkedPair? mark text).map (Prod.map id (· ++ more)) := by
  match text with
  | character :: rest =>
      rw [List.cons_append, takeMarkedPair?, takeMarkedPair?]
      split
      · exact takePair?_append more (by simpa using long)
      · rfl

theorem length_of_takeMarkedPair? (pair : takeMarkedPair? mark text = some (value, rest)) :
    text.length = rest.length + 3 := by
  simp only [takeMarkedPair?] at pair
  split at pair
  · split at pair
    · rw [List.length_cons, length_of_takePair? pair]
    · contradiction
  · contradiction

/-- A time has eleven characters. -/
theorem length_of_atStart? (found : atStart? text = some time) : 11 ≤ text.length := by
  simp only [atStart?, Option.bind_eq_bind, Option.bind_eq_some_iff] at found
  obtain ⟨⟨hours, rest⟩, pair, ⟨minutes, rest'⟩, pair', ⟨seconds, rest''⟩, pair'',
    ⟨hundredths, rest'''⟩, pair''', -⟩ := found
  rw [length_of_takePair? pair, length_of_takeMarkedPair? pair', length_of_takeMarkedPair? pair'',
    length_of_takeMarkedPair? pair''']
  omega

/-- Whether a time stands in front of a text is seen from eleven characters. -/
theorem atStart?_append (more : List Char) (long : 11 ≤ text.length) :
    atStart? (text ++ more) = atStart? text := by
  simp only [atStart?, Option.bind_eq_bind]
  rw [takePair?_append more (by omega), Option.bind_map]
  refine Option.bind_congr fun ⟨hours, rest⟩ pair => ?_
  have shorter := length_of_takePair? pair
  simp only [Function.comp_apply, Prod.map_apply, id_eq]
  rw [takeMarkedPair?_append more (by omega), Option.bind_map]
  refine Option.bind_congr fun ⟨minutes, rest'⟩ pair' => ?_
  have shorter' := length_of_takeMarkedPair? pair'
  simp only [Function.comp_apply, Prod.map_apply, id_eq]
  rw [takeMarkedPair?_append more (by omega), Option.bind_map]
  refine Option.bind_congr fun ⟨seconds, rest''⟩ pair'' => ?_
  have shorter'' := length_of_takeMarkedPair? pair''
  simp only [Function.comp_apply, Prod.map_apply, id_eq]
  rw [takeMarkedPair?_append more (by omega), Option.bind_map]
  rfl

/-- The length of a keyword with a time behind it. -/
def labelledLength (keyword : List Char) : Nat :=
  keyword.length + 11

theorem length_of_labelled? (found : labelled? keyword text = some time) :
    labelledLength keyword ≤ text.length := by
  rw [labelled?] at found
  split at found
  next labelled =>
    have behind := length_of_atStart? found
    have front := (List.isPrefixOf_iff_prefix.mp labelled).length_le
    rw [List.length_drop] at behind
    rw [labelledLength]
    omega
  next => contradiction

/-- Whether a labelled time stands in front of a text is seen from as many characters as it has. -/
theorem labelled?_append (more : List Char) (long : labelledLength keyword ≤ text.length) :
    labelled? keyword (text ++ more) = labelled? keyword text := by
  rw [labelledLength] at long
  have front : keyword <+: text ++ more ↔ keyword <+: text :=
    ⟨fun labelled => List.prefix_of_prefix_length_le labelled (List.prefix_append text more)
      (by omega), fun labelled => labelled.trans (List.prefix_append text more)⟩
  simp only [labelled?, List.isPrefixOf_iff_prefix, front]
  rw [List.drop_append_of_le_length (by omega),
    atStart?_append more (by rw [List.length_drop]; omega)]

/-! ### All times of a text -/

theorem allAfter_cons (keyword : List Char) (character : Char) (rest : List Char) :
    allAfter keyword (character :: rest) =
      (labelled? keyword (character :: rest)).toList ++ allAfter keyword rest := rfl

/-- The times of a text are those that stand in front of one of its ends, in order. -/
theorem allAfter_eq_filterMap (keyword text : List Char) :
    allAfter keyword text = text.tails.filterMap (labelled? keyword) := by
  induction text with
  | nil => cases found : labelled? keyword [] <;> simp [allAfter, found]
  | cons character rest ih =>
      rw [allAfter_cons, ih, List.tails]
      cases found : labelled? keyword (character :: rest) with
      | none => rw [List.filterMap_cons_none found]; rfl
      | some time => rw [List.filterMap_cons_some found]; rfl

/-- A time of a text stands somewhere in it. -/
theorem exists_labelled?_of_mem_allAfter (member : time ∈ allAfter keyword text) :
    ∃ before rest, text = before ++ rest ∧ labelled? keyword rest = some time := by
  rw [allAfter_eq_filterMap, List.mem_filterMap] at member
  obtain ⟨rest, tail, found⟩ := member
  obtain ⟨before, equal⟩ := (List.mem_tails _ _).mp tail
  exact ⟨before, rest, equal.symm, found⟩

theorem allAfter_of_short (short : text.length < labelledLength keyword) :
    allAfter keyword text = [] := by
  rw [List.eq_nil_iff_forall_not_mem]
  intro time member
  obtain ⟨before, rest, rfl, found⟩ := exists_labelled?_of_mem_allAfter member
  have long := length_of_labelled? found
  rw [List.length_append] at short
  omega

/-- The times of a text with more behind it are those of the text, and those that begin too late in
it to be complete there. -/
theorem allAfter_append (keyword text more : List Char) :
    allAfter keyword (text ++ more) =
      allAfter keyword text ++
        allAfter keyword (text.rtake (labelledLength keyword - 1) ++ more) := by
  induction text with
  | nil =>
      have none : allAfter keyword [] = [] :=
        allAfter_of_short (by rw [labelledLength, List.length_nil]; omega)
      rw [none, List.rtake_nil]
      rfl
  | cons character rest ih =>
      by_cases long : labelledLength keyword ≤ (character :: rest).length
      · have found := labelled?_append more long
        have later : (character :: rest).rtake (labelledLength keyword - 1) =
            rest.rtake (labelledLength keyword - 1) := by
          rw [List.length_cons] at long
          rw [← List.singleton_append, rtake_append_of_le (by omega)]
        rw [List.cons_append] at found ⊢
        rw [allAfter_cons, found, ih, later, allAfter_cons, List.append_assoc]
      · rw [rtake_of_length_le (by omega), allAfter_of_short (not_le.mp long)]
        rfl

/-- The end of a text has the last times of it. -/
theorem allAfter_suffix (keyword : List Char) (suffix : rest <:+ text) :
    allAfter keyword rest <:+ allAfter keyword text := by
  obtain ⟨before, rfl⟩ := suffix
  induction before with
  | nil => exact List.suffix_rfl
  | cons character before ih =>
      rw [List.cons_append, allAfter_cons]
      exact ih.trans (List.suffix_append _ _)

/-- The beginning of a text has the first times of it. -/
theorem allAfter_prefix (keyword : List Char) (front : piece <+: text) :
    allAfter keyword piece <+: allAfter keyword text := by
  obtain ⟨more, rfl⟩ := front
  rw [allAfter_append]
  exact List.prefix_append _ _

/-- A piece completes the same times behind a text and behind an end of it that is long enough. -/
theorem exists_fresh (keyword seen piece : List Char) {count : Nat}
    (enough : labelledLength keyword ≤ count + 1) :
    ∃ fresh, allAfter keyword (seen ++ piece) = allAfter keyword seen ++ fresh ∧
      allAfter keyword (seen.rtake count ++ piece) =
        allAfter keyword (seen.rtake count) ++ fresh := by
  refine ⟨_, allAfter_append keyword seen piece, ?_⟩
  rw [allAfter_append, rtake_rtake (by omega)]

end ClockTime

end Montage
