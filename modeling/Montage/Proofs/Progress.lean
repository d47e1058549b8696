import Montage.Event
import Montage.Proofs.Binary64.Arithmetic
import Montage.Progress

/-!
# The progress that a render reports

Percentages rise, whatever the renderer writes, because one that does not is left out. With a
length that is a number no piece of output fails, and every percentage may be reported.
-/

namespace Montage

namespace Text

/-- A decimal digit is less than ten. -/
theorem lt_of_mem_digitValue? {character : Char} {value : Nat}
    (digit : value ∈ digitValue? character) : value < 10 := by
  obtain ⟨first, -, found⟩ := List.exists_of_findSome?_eq_some digit
  split at found
  · cases found
    omega
  · contradiction

end Text

theorem Binary64.toRat?_hundred : (100 : Binary64).toRat? = some 100 := by decide +kernel

namespace ClockTime

/-- No part of a time has more than two digits. -/
structure Short (time : ClockTime) : Prop where
  hours : time.hours < 100
  minutes : time.minutes < 100
  seconds : time.seconds < 100
  hundredths : time.hundredths < 100

variable {text rest keyword : List Char} {value : Nat} {mark : Char} {time : ClockTime}

theorem lt_of_takePair? (pair : takePair? text = some (value, rest)) : value < 100 := by
  simp only [takePair?] at pair
  split at pair
  · simp only [Option.bind_eq_bind, Option.bind_eq_some_iff] at pair
    obtain ⟨tens, digit, units, digit', equal⟩ := pair
    have tens := Text.lt_of_mem_digitValue? digit
    have units := Text.lt_of_mem_digitValue? digit'
    cases equal
    omega
  · contradiction

theorem lt_of_takeMarkedPair? (pair : takeMarkedPair? mark text = some (value, rest)) :
    value < 100 := by
  simp only [takeMarkedPair?] at pair
  split at pair
  · split at pair
    · exact lt_of_takePair? pair
    · contradiction
  · contradiction

theorem short_of_atStart? (found : atStart? text = some time) : time.Short := by
  simp only [atStart?, Option.bind_eq_bind, Option.bind_eq_some_iff] at found
  obtain ⟨hours, pair, minutes, pair', seconds, pair'', hundredths, pair''', equal⟩ := found
  cases equal
  exact ⟨lt_of_takePair? pair, lt_of_takeMarkedPair? pair', lt_of_takeMarkedPair? pair'',
    lt_of_takeMarkedPair? pair'''⟩

theorem short_of_mem_allAfter (member : time ∈ allAfter keyword text) : time.Short := by
  have short {text : List Char} (found : time ∈ (labelled? keyword text).toList) :
      time.Short := by
    rw [Option.mem_toList, labelled?] at found
    split at found
    · exact short_of_atStart? found
    · contradiction
  induction text with
  | nil => exact short member
  | cons character rest ih =>
      rcases List.mem_append.mp member with first | later
      · exact short first
      · exact ih later

/-- A time is a finite number of seconds. -/
theorem Short.within (short : time.Short) : time.toSeconds.Within 21 := by
  obtain ⟨hours, minutes, seconds, hundredths⟩ := short
  have whole : (Binary64.ofNat (time.hours * 3600 + time.minutes * 60 + time.seconds)).Within 19 :=
    Binary64.within_ofNat (by omega) (by omega)
  have part : ((Binary64.ofNat time.hundredths).quotient 100).Within 19 :=
    (Binary64.within_ofNat (by omega) (by omega)).quotient Binary64.toRat?_hundred (by norm_num)
      (by omega)
  exact whole.add part (by omega)

/-- The sign bit of a time is not set. -/
theorem Short.unsigned (short : time.Short) : time.toSeconds.Unsigned := by
  obtain ⟨hours, minutes, seconds, hundredths⟩ := short
  have unsigned (value : Nat) : (Binary64.ofNat value).Unsigned :=
    Binary64.unsigned_ofRat (Nat.cast_nonneg value)
  have whole : (Binary64.ofNat (time.hours * 3600 + time.minutes * 60 + time.seconds)).Within 19 :=
    Binary64.within_ofNat (by omega) (by omega)
  have digits : (Binary64.ofNat time.hundredths).Within 18 :=
    Binary64.within_ofNat (by omega) (by omega)
  have part := digits.quotient Binary64.toRat?_hundred (by norm_num) (by omega)
  obtain ⟨_, wholeValue, -⟩ := whole
  obtain ⟨_, digitsValue, -⟩ := digits
  obtain ⟨_, partValue, -⟩ := part
  have unsignedPart := (unsigned time.hundredths).quotient digitsValue Binary64.toRat?_hundred
    (by norm_num)
  exact (unsigned _).add unsignedPart wholeValue partValue

end ClockTime

/-- The event that reports a percentage. -/
def RenderEvent.percentage (percent : Binary64) : RenderEvent := { progress := some percent }

/-- Exactly the numbers from zero to hundred may be reported. -/
theorem RenderEvent.ofProgress_eq_ok {percent : Binary64} {event : RenderEvent} :
    ofProgress percent = .ok event ↔
      event = .percentage percent ∧ (0 : Binary64) ≤ percent ∧ percent ≤ 100 := by
  simp only [ofProgress, progressCause?]
  by_cases most : percent ≤ 100
  · by_cases risen : (0 : Binary64) ≤ percent
    · simp [most, risen, percentage, eq_comm]
    · simp [most, risen]
  · simp [most]

/-- A length of a film that percentages can be computed with: a number, and within the range of
binary64 numbers. -/
def Number.MeasuresFilm (duration : Number) : Prop :=
  ∃ seconds, duration.toBinary64 = .ok seconds ∧ seconds ≠ .nan

namespace ProgressParser

variable {parser next : ProgressParser} {piece : List Char} {report : Option Binary64}

@[simp] theorem observe_lastProgress (parser : ProgressParser) (text : List Char) :
    (parser.observe text).lastProgress = parser.lastProgress := rfl

/-- All that a piece of output does to what is known. -/
theorem parts_of_feed (fed : parser.feed piece = .ok (next, report)) :
    next = { parser.observe (parser.kept ++ piece) with
        lastProgress := report.getD parser.lastProgress } ∧
      ∀ percent ∈ report, ¬percent ≤ parser.lastProgress := by
  simp only [feed] at fed
  split at fed
  next duration position _ _ =>
    obtain ⟨seconds, -, equal⟩ := bind_eq_ok.mp fed
    split at equal
    next low =>
      cases equal
      exact ⟨rfl, by simp⟩
    next rises =>
      cases equal
      exact ⟨rfl, by simpa using rises⟩
  next =>
    cases fed
    exact ⟨rfl, by simp⟩

/-- The percentage at a position is one. -/
theorem percentAt_le {position duration : Binary64} {value : ℚ}
    (finite : position.toRat? = some value) (number : duration ≠ .nan) :
    percentAt position duration ≤ 100 := by
  have product := Binary64.mul_ne_nan (Binary64.quotient_ne_nan finite number)
    Binary64.toRat?_hundred (by decide +kernel)
  exact Binary64.least_le product (by decide +kernel)

/-- The length that counts is the named one or the one given from outside. -/
theorem mem_effectiveDuration {duration : Number} (counts : duration ∈ parser.effectiveDuration) :
    duration ∈ parser.fallbackDuration ∨ ∃ seconds ∈ parser.duration, duration = .real seconds := by
  simp only [effectiveDuration] at counts
  split at counts
  next seconds known =>
    split at counts
    · exact .inl counts
    · cases counts
      exact .inr ⟨seconds, known, rfl⟩
  next => exact .inl counts

section Percentages

variable {position position' duration : Binary64} {value value' length : ℚ}

/-- The percentage at a position that is not negative has no sign. -/
theorem unsigned_percentAt (unsigned : position.Unsigned) (finite : position.toRat? = some value)
    (measures : duration.toRat? = some length) (positive : 0 < length) :
    (percentAt position duration).Unsigned := by
  have hundred : (0 : ℚ) < 100 := by norm_num
  have quotient := unsigned.quotient finite measures positive
  have bound := Binary64.unsigned_of_pos Binary64.toRat?_hundred hundred
  exact (quotient.mul Binary64.toRat?_hundred hundred).least bound

/-- The percentage grows with the position. -/
theorem percentAt_le_percentAt (unsigned : position.Unsigned) (unsigned' : position'.Unsigned)
    (finite : position.toRat? = some value) (finite' : position'.toRat? = some value')
    (measures : duration.toRat? = some length) (positive : 0 < length) (atMost : value ≤ value') :
    percentAt position duration ≤ percentAt position' duration := by
  have hundred : (0 : ℚ) < 100 := by norm_num
  have quotients := unsigned.quotient_le_quotient unsigned' finite finite' measures positive atMost
  have products := (unsigned.quotient finite measures positive).mul_le_mul
    (unsigned'.quotient finite' measures positive) Binary64.toRat?_hundred hundred quotients
  exact Binary64.least_mono (by decide +kernel) products

end Percentages

/-- The lengths that a parser knows measure a film, and it has reported nothing below zero. -/
structure Sound (parser : ProgressParser) : Prop where
  named : ∀ duration ∈ parser.duration, duration ≠ .nan
  fallback : ∀ duration ∈ parser.fallbackDuration, duration.MeasuresFilm
  risen : (0 : Binary64) ≤ parser.lastProgress

theorem sound_start {duration : Option Number}
    (measures : ∀ value ∈ duration, value.MeasuresFilm) :
    ({ fallbackDuration := duration } : ProgressParser).Sound := by
  refine ⟨by simp, measures, ?_⟩
  change (0 : Binary64) ≤ 0
  decide +kernel

namespace Sound

theorem observe (sound : parser.Sound) (text : List Char) : (parser.observe text).Sound := by
  refine ⟨fun duration known => ?_, sound.fallback, sound.risen⟩
  rcases Option.or_eq_some_iff.mp known with before | ⟨-, found⟩
  · exact sound.named duration before
  · obtain ⟨time, first, rfl⟩ := Option.mem_map.mp found
    exact (ClockTime.short_of_mem_allAfter (List.mem_of_head? first)).within.ne_nan

theorem effective (sound : parser.Sound) {duration : Number}
    (counts : duration ∈ parser.effectiveDuration) : duration.MeasuresFilm := by
  rcases mem_effectiveDuration counts with given | ⟨seconds, known, rfl⟩
  · exact sound.fallback duration given
  · exact ⟨seconds, rfl, sound.named seconds known⟩

/-- A piece of output does not fail, and the percentage that it leads to may be reported. -/
theorem feed (sound : parser.Sound) (piece : List Char) :
    ∃ next report, parser.feed piece = .ok (next, report) ∧ next.Sound ∧
      ∀ percent ∈ report, RenderEvent.ofProgress percent = .ok (.percentage percent) := by
  have observed := sound.observe (parser.kept ++ piece)
  simp only [ProgressParser.feed]
  split
  next duration position counts listed =>
    obtain ⟨counts, -⟩ := Option.filter_eq_some_iff.mp counts
    obtain ⟨seconds, converted, number⟩ := observed.effective counts
    obtain ⟨value, finite, -⟩ :=
      (ClockTime.short_of_mem_allAfter (List.mem_of_getLast? listed)).within
    have most := percentAt_le finite number
    simp only [converted, bind, Except.bind]
    generalize percentAt position.toSeconds seconds = percent at most ⊢
    by_cases low : percent ≤ (parser.observe (parser.kept ++ piece)).lastProgress
    · rw [if_pos low]
      exact ⟨_, _, rfl, observed, by simp⟩
    · rw [if_neg low]
      have rises := Binary64.lt_of_not_le (Binary64.ne_nan_of_le most).1
        (Binary64.ne_nan_of_le observed.risen).2 low
      have risen := Binary64.le_of_lt (Binary64.lt_of_le_of_lt observed.risen rises)
      refine ⟨_, _, rfl, ⟨observed.named, observed.fallback, risen⟩, ?_⟩
      simp [RenderEvent.ofProgress_eq_ok, most, risen]
  next => exact ⟨_, _, rfl, observed, by simp⟩

end Sound

/-- Take pieces one after another and collect the percentages that are reported. -/
def feedAll (parser : ProgressParser) :
    List String → Except ArithmeticError (ProgressParser × List Binary64)
  | [] => .ok (parser, [])
  | piece :: rest => do
      let (parser, report) ← parser.feed piece.toList
      let (parser, reports) ← parser.feedAll rest
      return (parser, report.toList ++ reports)

end ProgressParser

end Montage
