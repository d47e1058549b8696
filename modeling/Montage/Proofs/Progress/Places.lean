import Montage.Proofs.Progress.Pieces

/-!
# Where the positions stand that are reported

A position says how far a film of known length has come only when it stands behind that length in
the text. The end that is kept of the text before may hold a position in front of the length, and
the piece that completes the first length takes it for a new one. From the next piece on such a
position is no greater than what has been reported, so it is not reported again.
-/

namespace Montage

namespace ClockTime

variable {keyword text rest more seen piece : List Char} {time time' : ClockTime}
variable {place start count value index : Nat} {mark letter : Char}

/-! ## Places of times -/

/-- A time stands after a keyword at a place of a text. -/
def StandsAt (keyword text : List Char) (place : Nat) (time : ClockTime) : Prop :=
  labelled? keyword (text.drop place) = some time

/-- The first of the times after a keyword. -/
structure FirstAt (keyword text : List Char) (place : Nat) (time : ClockTime) : Prop where
  stands : StandsAt keyword text place time
  first : ∀ earlier other, StandsAt keyword text earlier other → place ≤ earlier

/-- The last of the times after a keyword. -/
structure LastAt (keyword text : List Char) (place : Nat) (time : ClockTime) : Prop where
  stands : StandsAt keyword text place time
  last : ∀ later other, StandsAt keyword text later other → later ≤ place

/-- A labelled time ends within the text. -/
theorem StandsAt.le (stands : StandsAt keyword text place time) :
    place + labelledLength keyword ≤ text.length := by
  have long := length_of_labelled? stands
  rw [List.length_drop] at long
  have positive : 0 < labelledLength keyword := Nat.succ_pos _
  omega

theorem StandsAt.unique (stands : StandsAt keyword text place time)
    (stands' : StandsAt keyword text place time') : time = time' :=
  Option.some.inj (stands.symm.trans stands')

/-- What comes behind a time does not change it. -/
theorem standsAt_append_iff (complete : place + labelledLength keyword ≤ text.length) :
    StandsAt keyword (text ++ more) place time ↔ StandsAt keyword text place time := by
  rw [StandsAt, StandsAt, List.drop_append_of_le_length (by omega),
    labelled?_append more (by rw [List.length_drop]; omega)]

theorem StandsAt.append (stands : StandsAt keyword text place time) (more : List Char) :
    StandsAt keyword (text ++ more) place time :=
  (standsAt_append_iff stands.le).mpr stands

theorem standsAt_drop_iff :
    StandsAt keyword (text.drop count) place time ↔ StandsAt keyword text (count + place) time := by
  rw [StandsAt, StandsAt, List.drop_drop]

theorem standsAt_cons_iff {character : Char} :
    StandsAt keyword (character :: rest) (place + 1) time ↔ StandsAt keyword rest place time :=
  Iff.rfl

theorem StandsAt.mem_allAfter (stands : StandsAt keyword text place time) :
    time ∈ allAfter keyword text := by
  rw [allAfter_eq_filterMap, List.mem_filterMap]
  exact ⟨text.drop place, (List.mem_tails _ _).mpr (List.drop_suffix _ _), stands⟩

theorem not_standsAt_of_allAfter_eq_nil (none : allAfter keyword text = []) :
    ¬StandsAt keyword text place time := by
  intro stands
  have member := stands.mem_allAfter
  rw [none] at member
  exact List.not_mem_nil member

theorem getLast?_toList (found : Option ClockTime) : found.toList.getLast? = found := by
  cases found with
  | none => rfl
  | some time => rfl

/-- The first of all times is the one that stands first. -/
theorem exists_firstAt (first : (allAfter keyword text).head? = some time) :
    ∃ place, FirstAt keyword text place time := by
  induction text with
  | nil =>
      refine ⟨0, ?_, fun earlier other _ => Nat.zero_le earlier⟩
      rwa [allAfter, Option.head?_toList] at first
  | cons character rest ih =>
      rw [allAfter_cons] at first
      cases here : labelled? keyword (character :: rest) with
      | some found =>
          rw [here, Option.toList_some, List.singleton_append, List.head?_cons] at first
          exact ⟨0, here.trans first, fun earlier other _ => Nat.zero_le earlier⟩
      | none =>
          rw [here, Option.toList_none, List.nil_append] at first
          obtain ⟨place, stands, least⟩ := ih first
          refine ⟨place + 1, stands, fun earlier other standsThere => ?_⟩
          cases earlier with
          | zero => exact absurd (here.symm.trans standsThere) (by simp)
          | succ earlier => exact Nat.succ_le_succ (least earlier other standsThere)

/-- The last of all times is the one that stands last. -/
theorem exists_lastAt (last : (allAfter keyword text).getLast? = some time) :
    ∃ place, LastAt keyword text place time := by
  induction text with
  | nil =>
      rw [allAfter] at last
      have stands : labelled? keyword [] = some time := by
        rwa [getLast?_toList] at last
      have long := length_of_labelled? stands
      exact absurd long (Nat.not_succ_le_zero _)
  | cons character rest ih =>
      rw [allAfter_cons] at last
      by_cases later : allAfter keyword rest = []
      · rw [later, List.append_nil, getLast?_toList] at last
        refine ⟨0, last, fun place other stands => ?_⟩
        cases place with
        | zero => exact le_rfl
        | succ place =>
            rw [standsAt_cons_iff] at stands
            exact absurd stands (not_standsAt_of_allAfter_eq_nil later)
      · rw [List.getLast?_append_of_ne_nil _ later] at last
        obtain ⟨place, stands, most⟩ := ih last
        refine ⟨place + 1, stands, fun later other standsThere => ?_⟩
        cases later with
        | zero => exact Nat.zero_le _
        | succ later => exact Nat.succ_le_succ (most later other standsThere)

/-- A beginning of a text that holds its first time has the same first time. -/
theorem FirstAt.head? (first : FirstAt keyword text place time) :
    (allAfter keyword text).head? = some time := by
  obtain ⟨found, rest, listed⟩ :=
    List.exists_cons_of_ne_nil (List.ne_nil_of_mem first.stands.mem_allAfter)
  have head : (allAfter keyword text).head? = some found := by rw [listed, List.head?_cons]
  obtain ⟨start, firstFound⟩ := exists_firstAt head
  have same : place = start :=
    le_antisymm (first.first _ _ firstFound.stands) (firstFound.first _ _ first.stands)
  subst same
  rw [head, first.stands.unique firstFound.stands]

/-- The last time is unique. -/
theorem LastAt.getLast? (last : LastAt keyword text place time) :
    (allAfter keyword text).getLast? = some time := by
  cases listed : (allAfter keyword text).getLast? with
  | none =>
      exact absurd last.stands (not_standsAt_of_allAfter_eq_nil (List.getLast?_eq_none_iff.mp listed))
  | some found =>
      obtain ⟨start, lastFound⟩ := exists_lastAt listed
      have same : place = start :=
        le_antisymm (lastFound.last _ _ last.stands) (last.last _ _ lastFound.stands)
      subst same
      rw [last.stands.unique lastFound.stands]

/-- A time that is complete in a beginning of a text and first in the text is first there. -/
theorem FirstAt.of_append (first : FirstAt keyword (text ++ more) place time)
    (complete : place + labelledLength keyword ≤ text.length) : FirstAt keyword text place time where
  stands := (standsAt_append_iff complete).mp first.stands
  first := fun earlier other stands => first.first earlier other (stands.append more)

theorem LastAt.of_append (last : LastAt keyword (text ++ more) place time)
    (complete : place + labelledLength keyword ≤ text.length) : LastAt keyword text place time where
  stands := (standsAt_append_iff complete).mp last.stands
  last := fun later other stands => last.last later other (stands.append more)

/-- The last time of an end of a text is the last one of the text. -/
theorem LastAt.of_drop (last : LastAt keyword (text.drop count) place time) :
    LastAt keyword text (count + place) time where
  stands := standsAt_drop_iff.mp last.stands
  last := by
    intro later other stands
    rcases Nat.lt_or_ge later count with before | behind
    · omega
    · obtain ⟨distance, rfl⟩ := Nat.exists_eq_add_of_le behind
      have most := last.last distance other (standsAt_drop_iff.mpr stands)
      omega

theorem LastAt.drop (last : LastAt keyword text (count + place) time) :
    LastAt keyword (text.drop count) place time where
  stands := standsAt_drop_iff.mpr last.stands
  last := by
    intro later other stands
    have most := last.last _ other (standsAt_drop_iff.mp stands)
    omega

/-! ## Lengths and positions do not overlap -/

/-- Holds of the characters that times are written with. -/
def IsTimeCharacter (character : Char) : Prop :=
  (Text.digitValue? character).isSome ∨ character = ':' ∨ character = '.'

instance : DecidablePred IsTimeCharacter := fun _ =>
  inferInstanceAs (Decidable (_ ∨ _ ∨ _))

/-- A text begins with so many characters of a time. -/
def BeginsWithTime (text rest : List Char) (count : Nat) : Prop :=
  ∃ front, text = front ++ rest ∧ front.length = count ∧ ∀ character ∈ front, IsTimeCharacter character

theorem BeginsWithTime.trans {before : List Char} {count' : Nat}
    (first : BeginsWithTime before text count) (second : BeginsWithTime text rest count') :
    BeginsWithTime before rest (count + count') := by
  obtain ⟨front, rfl, rfl, holds⟩ := first
  obtain ⟨front', rfl, rfl, holds'⟩ := second
  exact ⟨front ++ front', (List.append_assoc _ _ _).symm, List.length_append,
    List.forall_mem_append.mpr ⟨holds, holds'⟩⟩

theorem beginsWithTime_of_takePair? (pair : takePair? text = some (value, rest)) :
    BeginsWithTime text rest 2 := by
  simp only [takePair?] at pair
  split at pair
  next first second behind =>
    simp only [Option.bind_eq_bind, Option.bind_eq_some_iff] at pair
    obtain ⟨tens, digit, units, digit', equal⟩ := pair
    cases equal
    have writes : IsTimeCharacter first := .inl (Option.isSome_of_eq_some digit)
    have writes' : IsTimeCharacter second := .inl (Option.isSome_of_eq_some digit')
    exact ⟨[first, second], rfl, rfl,
      List.forall_mem_cons.mpr ⟨writes, List.forall_mem_singleton.mpr writes'⟩⟩
  next => contradiction

theorem beginsWithTime_of_takeMarkedPair? (writes : IsTimeCharacter mark)
    (pair : takeMarkedPair? mark text = some (value, rest)) : BeginsWithTime text rest 3 := by
  simp only [takeMarkedPair?] at pair
  split at pair
  next character behind =>
    split at pair
    next same =>
      subst same
      have front : BeginsWithTime (character :: behind) behind 1 :=
        ⟨[character], rfl, rfl, List.forall_mem_singleton.mpr writes⟩
      exact front.trans (beginsWithTime_of_takePair? pair)
    next => contradiction
  next => contradiction

theorem beginsWithTime_of_atStart? (found : atStart? text = some time) :
    ∃ rest, BeginsWithTime text rest 11 := by
  simp only [atStart?, Option.bind_eq_bind, Option.bind_eq_some_iff] at found
  obtain ⟨⟨hours, rest⟩, pair, ⟨minutes, rest'⟩, pair', ⟨seconds, rest''⟩, pair'',
    ⟨hundredths, left⟩, pair''', -⟩ := found
  have colon : IsTimeCharacter ':' := .inr (.inl rfl)
  have point : IsTimeCharacter '.' := .inr (.inr rfl)
  exact ⟨left, (((beginsWithTime_of_takePair? pair).trans
    (beginsWithTime_of_takeMarkedPair? colon pair')).trans
    (beginsWithTime_of_takeMarkedPair? colon pair'')).trans
    (beginsWithTime_of_takeMarkedPair? point pair''')⟩

/-- A labelled time has the characters of its keyword. -/
theorem StandsAt.getElem?_of_keyword (stands : StandsAt keyword text place time)
    (named : keyword[index]? = some letter) : text[place + index]? = some letter := by
  simp only [StandsAt, labelled?] at stands
  split at stands
  next front =>
    obtain ⟨behind, split⟩ := List.isPrefixOf_iff_prefix.mp front
    rw [← List.getElem?_drop, ← split, List.getElem?_append_left
      (List.getElem?_eq_some_iff.mp named).1, named]
  next => contradiction

/-- A character of a labelled time that no time is written with is one of its keyword. -/
theorem StandsAt.keyword_of_getElem? (stands : StandsAt keyword text place time)
    (within : index < labelledLength keyword) (here : text[place + index]? = some letter)
    (foreign : ¬IsTimeCharacter letter) : keyword[index]? = some letter := by
  simp only [StandsAt, labelled?] at stands
  split at stands
  next front =>
    obtain ⟨behind, split⟩ := List.isPrefixOf_iff_prefix.mp front
    rw [← split, List.drop_left] at stands
    obtain ⟨rest, written, rfl, count, holds⟩ := beginsWithTime_of_atStart? stands
    rw [← List.getElem?_drop, ← split] at here
    rcases Nat.lt_or_ge index keyword.length with label | late
    · rwa [List.getElem?_append_left label] at here
    · have inTime : index - keyword.length < written.length := by
        rw [labelledLength] at within
        omega
      rw [List.getElem?_append_right late, List.getElem?_append_left inTime] at here
      exact absurd (holds letter (List.mem_of_getElem? here)) foreign
  next => contradiction

/-- A length and a position of one text stand apart. -/
theorem StandsAt.apart (length : StandsAt durationKeyword text start time)
    (position : StandsAt positionKeyword text place time') :
    start + labelledLength durationKeyword ≤ place ∨
      place + labelledLength positionKeyword ≤ start := by
  by_contra overlap
  rw [not_or, not_le, not_le] at overlap
  obtain ⟨early, late⟩ := overlap
  rcases Nat.le_total start place with behind | before
  · -- The keyword of a length has one `t`, and it goes on unlike that of a position.
    obtain ⟨index, rfl⟩ := Nat.exists_eq_add_of_le behind
    have first : text[start + index + 0]? = some 't' := position.getElem?_of_keyword rfl
    have third : text[start + index + 2]? = some 'm' := position.getElem?_of_keyword rfl
    have named := length.keyword_of_getElem? (by omega) first (by decide +kernel)
    have only : ∀ index < durationKeyword.length, durationKeyword[index]? = some 't' → index = 4 := by
      decide
    have fifth := only index (List.getElem?_eq_some_iff.mp named).1 named
    subst fifth
    have seventh : text[start + 6]? = some 'o' := length.getElem?_of_keyword rfl
    rw [Nat.add_assoc, seventh] at third
    exact absurd third (by decide)
  · -- No letter of a position is the first one of a length.
    obtain ⟨index, rfl⟩ := Nat.exists_eq_add_of_le before
    have first : text[place + index + 0]? = some 'D' := length.getElem?_of_keyword rfl
    have named := position.keyword_of_getElem? (by omega) first (by decide +kernel)
    exact absurd (List.mem_of_getElem? named) (by decide)

end ClockTime

namespace ProgressParser

open ClockTime (FirstAt LastAt StandsAt allAfter labelledLength)

variable {parser next : ProgressParser} {seen : List Char} {length percent : Binary64}

/-! ## Positions that have been taken -/

/-- Without a length given from outside a length counts when the text has named it and it is not
zero. -/
theorem filter_effectiveDuration (given : parser.fallbackDuration = none) {duration : Number} :
    parser.effectiveDuration.filter (!·.isZero) = some duration ↔
      ∃ length, parser.duration = some length ∧ length.isZero = false ∧ duration = .real length := by
  rw [effectiveDuration, given]
  cases known : parser.duration with
  | none => simp
  | some length =>
      cases nonzero : length.isZero with
      | true => simp [nonzero]
      | false =>
          have counts : Number.isZero (.real length) = false := nonzero
          simp only [nonzero, Bool.false_eq_true, ↓reduceIte, Option.filter_some, counts,
            Bool.not_false, Option.some.injEq]
          constructor
          · rintro rfl
            exact ⟨length, rfl, nonzero, rfl⟩
          · rintro ⟨same, rfl, -, rfl⟩
            rfl

/-- The length that the text names is a number. -/
theorem Remembers.length_ne_nan {fallback : Option Number}
    (remembers : parser.Remembers fallback seen) (known : parser.duration = some length) :
    length ≠ .nan := by
  rw [remembers.duration] at known
  obtain ⟨time, first, rfl⟩ := Option.map_eq_some_iff.mp known
  exact (ClockTime.short_of_mem_allAfter (List.mem_of_head? first)).within.ne_nan

/-- What is seen of a text with a piece behind it is an end of it. -/
theorem Remembers.window {fallback : Option Number} (remembers : parser.Remembers fallback seen)
    (piece : List Char) :
    parser.kept ++ piece = (seen ++ piece).drop (seen.length - keptLength) := by
  rw [remembers.kept, List.rtake, List.drop_append_of_le_length (Nat.sub_le _ _)]

/-- A parser that knows the length has taken the last position of the text, if it still sees it:
what it has reported is at least the percentage there. -/
structure Settled (parser : ProgressParser) (seen : List Char) : Prop
    extends parser.Remembers none seen where
  taken : ∀ {length place position}, parser.duration = some length → length.isZero = false →
    LastAt positionKeyword seen place position → seen.length ≤ place + keptLength →
      percentAt position.toSeconds length ≤ parser.lastProgress

theorem settled_start : ({} : ProgressParser).Settled [] where
  toRemembers := remembers_start none
  taken := by
    intro length place position known
    contradiction

theorem Settled.feed (settled : parser.Settled seen) {piece : List Char} {report : Option Binary64}
    (fed : parser.feed piece = .ok (next, report)) : next.Settled (seen ++ piece) where
  toRemembers := settled.toRemembers.feed fed
  taken := by
    intro length place position known nonzero last near
    have observed := settled.toRemembers.observe piece
    have named : (parser.observe (parser.kept ++ piece)).duration = some length := by
      rwa [(parts_of_feed fed).1] at known
    have counts := (filter_effectiveDuration observed.fallback).mpr ⟨length, named, nonzero, rfl⟩
    have inWindow : seen.length - keptLength ≤ place := by
      rw [List.length_append] at near
      omega
    obtain ⟨distance, rfl⟩ := Nat.exists_eq_add_of_le inWindow
    have listed := last.drop.getLast?
    rw [← settled.window piece] at listed
    rw [feed_of_placed counts listed] at fed
    split at fed
    next low =>
      cases fed
      exact low
    next =>
      cases fed
      have short := ClockTime.short_of_mem_allAfter last.stands.mem_allAfter
      obtain ⟨value, finite, -⟩ := short.within
      have atMost := percentAt_le finite (observed.length_ne_nan named)
      exact Binary64.le_self (Binary64.ne_nan_of_le atMost).1

theorem Settled.after (settled : parser.Settled seen) (piece : String) :
    (parser.after piece).Settled (seen ++ piece.toList) := by
  have inRange : ∀ duration ∈ parser.fallbackDuration, duration.InRange := by
    rw [settled.fallback]
    intro duration given
    contradiction
  obtain ⟨⟨next, report⟩, fed⟩ := exists_feed inRange piece.toList
  rw [after_of_feed fed]
  exact settled.feed fed

theorem Settled.foldl (settled : parser.Settled seen) (pieces : List String) :
    (pieces.foldl ProgressParser.after parser).Settled (seen ++ (String.join pieces).toList) := by
  induction pieces generalizing parser seen with
  | nil => simpa using settled
  | cons piece rest ih =>
      rw [List.foldl_cons, String.join_cons, String.toList_append, ← List.append_assoc]
      exact ih (settled.after piece)

/-! ## Positions that are reported -/

/-- A percentage is that at the last position in sight, and it is greater than those before. -/
theorem exists_of_feed {piece : List Char} (given : parser.fallbackDuration = none)
    (fed : parser.feed piece = .ok (next, some percent)) :
    ∃ length position, (parser.observe (parser.kept ++ piece)).duration = some length ∧
      length.isZero = false ∧
      (allAfter positionKeyword (parser.kept ++ piece)).getLast? = some position ∧
      percent = percentAt position.toSeconds length ∧ ¬percent ≤ parser.lastProgress := by
  have rises := (parts_of_feed fed).2 percent rfl
  simp only [ProgressParser.feed] at fed
  split at fed
  next duration position counts listed =>
    have kept : (parser.observe (parser.kept ++ piece)).fallbackDuration = none := given
    obtain ⟨length, known, nonzero, rfl⟩ := (filter_effectiveDuration kept).mp counts
    refine ⟨length, position, known, nonzero, listed, ?_, rises⟩
    obtain ⟨seconds, converted, equal⟩ := bind_eq_ok.mp fed
    cases converted
    split at equal
    next => cases equal
    next =>
      cases equal
      rfl
  next => cases fed

/-- Where the position stands that a percentage is computed from. -/
structure Reports (seen piece : List Char) (percent : Binary64) (start : Nat) (length : ClockTime)
    (place : Nat) (position : ClockTime) : Prop where
  first : FirstAt durationKeyword (seen ++ piece) start length
  last : LastAt positionKeyword (seen ++ piece) place position
  percent_eq : percent = percentAt position.toSeconds length.toSeconds
  /-- The position is new or in the end that is kept. -/
  near : seen.length ≤ place + keptLength
  /-- The position stands behind the first length, unless the piece completes that length. -/
  behind : seen.length < start + labelledLength durationKeyword ∨
    start + labelledLength durationKeyword ≤ place

theorem Settled.reports (settled : parser.Settled seen) {piece : List Char}
    (fed : parser.feed piece = .ok (next, some percent)) :
    ∃ start length place position, Reports seen piece percent start length place position := by
  have observed := settled.toRemembers.observe piece
  obtain ⟨seconds, position, known, nonzero, listed, rfl, rises⟩ :=
    exists_of_feed settled.fallback fed
  rw [observed.duration] at known
  obtain ⟨length, head, rfl⟩ := Option.map_eq_some_iff.mp known
  obtain ⟨start, first⟩ := ClockTime.exists_firstAt head
  rw [settled.window piece] at listed
  obtain ⟨distance, lastSeen⟩ := ClockTime.exists_lastAt listed
  have last := lastSeen.of_drop
  refine ⟨start, length, _, position, first, last, rfl, by omega, ?_⟩
  rcases Nat.lt_or_ge seen.length (start + labelledLength durationKeyword) with fresh | complete
  · exact .inl fresh
  · rcases first.stands.apart last.stands with behind | ahead
    · exact .inr behind
    · -- The length was known and the position in front of it had been taken.
      have before := (first.of_append complete).head?
      have named : parser.duration = some length.toSeconds := by
        rw [settled.duration, before, Option.map_some]
      have lastBefore := last.of_append (by omega)
      exact absurd (settled.taken named nonzero lastBefore (by omega)) rises

/-- Whatever the pieces, a percentage that one of them leads to is that at the last position of the
text so far, relative to its first length. The position stands behind this length, unless the piece
is the one that completes it. -/
theorem exists_reports_of_pieces {pieces : List String} {piece : String}
    (fed : (pieces.foldl after {}).feed piece.toList = .ok (next, some percent)) :
    ∃ start length place position,
      Reports (String.join pieces).toList piece.toList percent start length place position := by
  have settled := settled_start.foldl pieces
  rw [List.nil_append] at settled
  exact settled.reports fed

/-- A line that names the length of a film. -/
def lengthLine : String := "  Duration: 00:00:10.00, start: 0.000000\n"

/-- A line that names a position in it. -/
def positionLine : String := "frame=1 time=00:00:05.00 bitrate=1k\n"

theorem reports_positionLine :
    ∃ next start length place position,
      ([lengthLine].foldl after {}).feed positionLine.toList = .ok (next, some 50) ∧
        Reports (String.join [lengthLine]).toList positionLine.toList 50 start length place
          position := by
  have fed : ∃ next,
      ([lengthLine].foldl after {}).feed positionLine.toList = .ok (next, some 50) :=
    ⟨{ duration := some 10, lastProgress := 50,
       kept := (lengthLine.toList ++ positionLine.toList).rtake keptLength }, by decide +kernel⟩
  obtain ⟨next, fed⟩ := fed
  obtain ⟨start, length, place, position, reports⟩ := exists_reports_of_pieces fed
  exact ⟨next, start, length, place, position, fed, reports⟩

/-- The piece that names the length reports a position that stands in front of it. -/
theorem reported_ahead :
    ∃ next start length,
      ([positionLine].foldl after {}).feed lengthLine.toList = .ok (next, some 50) ∧
        FirstAt durationKeyword (positionLine ++ lengthLine).toList start length ∧
          ∀ place position,
            StandsAt positionKeyword (positionLine ++ lengthLine).toList place position →
              place + labelledLength positionKeyword ≤ start := by
  have fed : ([positionLine].foldl after {}).feed lengthLine.toList =
      .ok ({ duration := some 10, lastProgress := 50,
             kept := (positionLine ++ lengthLine).toList.rtake keptLength }, some 50) := by
    decide +kernel
  have head : (allAfter durationKeyword (positionLine ++ lengthLine).toList).head? =
      some ⟨0, 0, 10, 0⟩ := by
    decide +kernel
  obtain ⟨start, first⟩ := ClockTime.exists_firstAt head
  have early : ∀ place ≤ (positionLine ++ lengthLine).toList.length,
      (ClockTime.labelled? positionKeyword
        ((positionLine ++ lengthLine).toList.drop place)).isSome → place = 8 := by
    decide +kernel
  refine ⟨_, start, _, fed, first, fun place position stands => ?_⟩
  have eighth := early place (by have bound := stands.le; omega) (Option.isSome_of_eq_some stands)
  subst eighth
  rcases first.stands.apart stands with behind | ahead
  · have short : labelledLength durationKeyword ≤ 8 := by omega
    exact absurd short (by decide)
  · exact ahead

end ProgressParser

end Montage
