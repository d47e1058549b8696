import Montage.Proofs.Progress
import Montage.Proofs.Progress.Times

/-!
# Reports that arrive in pieces

What is kept of the pieces before is longer than a labelled time, so a parser sees every time once
its last character has arrived. What it knows in the end depends on the whole text and not on the
pieces in which the text came.
-/

namespace Montage

/-- A number that is one of the binary64 numbers or becomes one. -/
def Number.InRange (number : Number) : Prop :=
  ∃ value, number.toBinary64 = .ok value

namespace ProgressParser

open ClockTime (allAfter)

variable {parser next : ProgressParser} {fallback : Option Number} {seen text : List Char}
variable {length : Binary64}

/-! ## What a parser remembers -/

/-- What a parser knows about the length of the film when it has been given a text. -/
structure Remembers (parser : ProgressParser) (fallback : Option Number) (seen : List Char) :
    Prop where
  kept : parser.kept = seen.rtake keptLength
  /-- The first length that the text names. -/
  duration : parser.duration = (allAfter durationKeyword seen).head?.map ClockTime.toSeconds
  fallback : parser.fallbackDuration = fallback

theorem remembers_start (fallback : Option Number) :
    ({ fallbackDuration := fallback } : ProgressParser).Remembers fallback [] where
  kept := rfl
  duration := rfl
  fallback := rfl

/-- The end of a text shows the first length if there is none before it. -/
theorem Remembers.observe (remembers : parser.Remembers fallback seen) (piece : List Char) :
    (parser.observe (parser.kept ++ piece)).Remembers fallback (seen ++ piece) where
  kept := by
    change (parser.kept ++ piece).rtake keptLength = _
    rw [remembers.kept, rtake_rtake_append le_rfl]
  duration := by
    have enough : ClockTime.labelledLength durationKeyword ≤ keptLength + 1 := by decide
    obtain ⟨fresh, whole, window⟩ := ClockTime.exists_fresh durationKeyword seen piece enough
    have earlier := ClockTime.allAfter_suffix durationKeyword (rtake_suffix seen keptLength)
    change parser.duration.or ((allAfter durationKeyword (parser.kept ++ piece)).head?.map _) = _
    rw [remembers.duration, remembers.kept, whole, window]
    cases known : allAfter durationKeyword seen with
    | nil =>
        rw [known, List.suffix_nil] at earlier
        rw [earlier]
        rfl
    | cons first rest => rfl
  fallback := remembers.fallback

/-- What has been reported does not matter for what is remembered. -/
theorem Remembers.report (remembers : parser.Remembers fallback seen) (percent : Binary64) :
    ({ parser with lastProgress := percent } : ProgressParser).Remembers fallback seen :=
  ⟨remembers.kept, remembers.duration, remembers.fallback⟩

theorem Remembers.feed (remembers : parser.Remembers fallback seen) {piece : List Char}
    {report : Option Binary64} (fed : parser.feed piece = .ok (next, report)) :
    next.Remembers fallback (seen ++ piece) := by
  rw [(parts_of_feed fed).1]
  exact (remembers.observe piece).report _

/-- What is known after a piece, also where the length that counts is too great for a percentage to
be computed. -/
def after (parser : ProgressParser) (piece : String) : ProgressParser :=
  match parser.feed piece.toList with
  | .ok (next, _) => next
  | .error _ => parser.observe (parser.kept ++ piece.toList)

theorem Remembers.after (remembers : parser.Remembers fallback seen) (piece : String) :
    (parser.after piece).Remembers fallback (seen ++ piece.toList) := by
  rw [ProgressParser.after]
  split
  next fed => exact remembers.feed fed
  next => exact remembers.observe _

theorem Remembers.foldl (remembers : parser.Remembers fallback seen) (pieces : List String) :
    (pieces.foldl ProgressParser.after parser).Remembers fallback
      (seen ++ (String.join pieces).toList) := by
  induction pieces generalizing parser seen with
  | nil => simpa using remembers
  | cons piece rest ih =>
      rw [List.foldl_cons, String.join_cons, String.toList_append, ← List.append_assoc]
      exact ih (remembers.after piece)

/-! ## Pieces that do not fail -/

/-- With a length within the range no piece fails. -/
theorem exists_feed (inRange : ∀ duration ∈ parser.fallbackDuration, duration.InRange)
    (piece : List Char) : ∃ result, parser.feed piece = .ok result := by
  simp only [feed]
  split
  next duration position counts _ =>
    obtain ⟨counts, -⟩ := Option.filter_eq_some_iff.mp counts
    have converted : duration.InRange := by
      rcases mem_effectiveDuration counts with given | ⟨seconds, -, rfl⟩
      · exact inRange duration given
      · exact ⟨seconds, rfl⟩
    obtain ⟨seconds, converted⟩ := converted
    simp only [converted, bind, Except.bind]
    split
    · exact ⟨_, rfl⟩
    · exact ⟨_, rfl⟩
  next => exact ⟨_, rfl⟩

theorem after_of_feed {piece : String} {report : Option Binary64}
    (fed : parser.feed piece.toList = .ok (next, report)) : parser.after piece = next := by
  rw [after, fed]

/-- With a length within the range all pieces are taken. -/
theorem exists_feedAll (inRange : ∀ duration ∈ fallback, duration.InRange)
    (given : parser.fallbackDuration = fallback) (pieces : List String) :
    ∃ reports, parser.feedAll pieces = .ok (pieces.foldl after parser, reports) := by
  induction pieces generalizing parser with
  | nil => exact ⟨[], rfl⟩
  | cons piece rest ih =>
      obtain ⟨⟨next, report⟩, fed⟩ := exists_feed (given ▸ inRange) piece.toList
      have kept : next.fallbackDuration = fallback := by
        rw [(parts_of_feed fed).1]
        exact given
      obtain ⟨reports, all⟩ := ih kept
      refine ⟨report.toList ++ reports, ?_⟩
      rw [List.foldl_cons, after_of_feed fed]
      simp only [feedAll, fed, all, bind, Except.bind]
      rfl

/-! ## The length of the film -/

/-- After any pieces the length is the first one that their text names, and none where it names
none. No piece fails unless the length given from outside is beyond the range. -/
theorem duration_of_pieces (fallback : Option Number) (pieces : List String) :
    (pieces.foldl after { fallbackDuration := fallback }).duration =
        (allAfter durationKeyword (String.join pieces).toList).head?.map ClockTime.toSeconds ∧
      ((∀ duration ∈ fallback, duration.InRange) →
        ∃ reports, ({ fallbackDuration := fallback } : ProgressParser).feedAll pieces =
          .ok (pieces.foldl after { fallbackDuration := fallback }, reports)) := by
  have remembers := (remembers_start fallback).foldl pieces
  exact ⟨remembers.duration, fun inRange => exists_feedAll inRange rfl pieces⟩

/-! ## The last percentage -/

/-- A text whose first length is above zero and stands in front of every position, and whose
positions do not go back. -/
structure Steady (length : Binary64) (text : List Char) : Prop where
  named : (allAfter durationKeyword text).head?.map ClockTime.toSeconds = some length
  positive : 0 < length
  /-- Where a position begins, a length has ended. -/
  ahead : ∀ before rest, text = before ++ rest →
    (ClockTime.labelled? positionKeyword rest).isSome → allAfter durationKeyword before ≠ []
  rising : (allAfter positionKeyword text).Pairwise fun earlier later =>
    earlier.toSeconds ≤ later.toSeconds

/-- The percentage at the last position of a text, which is zero as long as there is none. -/
def lastPercent (length : Binary64) (text : List Char) : Binary64 :=
  ((allAfter positionKeyword text).getLast?.map fun position =>
    percentAt position.toSeconds length).getD 0

namespace Steady

/-- Every beginning of the text that names a length names the same one. -/
theorem named_prefix (steady : Steady length text) (front : seen <+: text) {time : ClockTime}
    (first : (allAfter durationKeyword seen).head? = some time) : time.toSeconds = length := by
  obtain ⟨later, whole⟩ := ClockTime.allAfter_prefix durationKeyword front
  have named := steady.named
  rw [← whole, List.head?_append, first] at named
  exact Option.some.inj named

/-- A beginning of the text that names no length holds no position. -/
theorem positions_eq_nil (steady : Steady length text) (front : seen <+: text)
    (unnamed : allAfter durationKeyword seen = []) : allAfter positionKeyword seen = [] := by
  rw [List.eq_nil_iff_forall_not_mem]
  intro time member
  obtain ⟨before, rest, rfl, found⟩ := ClockTime.exists_labelled?_of_mem_allAfter member
  obtain ⟨more, whole⟩ := front
  have later : ClockTime.labelled? positionKeyword (rest ++ more) = some time := by
    rw [ClockTime.labelled?_append more (ClockTime.length_of_labelled? found), found]
  refine steady.ahead before (rest ++ more) ?_ (Option.isSome_of_eq_some later) ?_
  · rw [← List.append_assoc, whole]
  · have earlier := ClockTime.allAfter_prefix durationKeyword
      (List.prefix_append before rest)
    rwa [unnamed, List.prefix_nil] at earlier

/-- The length is a finite number above zero. -/
theorem exists_value (steady : Steady length text) :
    ∃ value, length.toRat? = some value ∧ 0 < value := by
  obtain ⟨time, first, rfl⟩ := Option.map_eq_some_iff.mp steady.named
  obtain ⟨value, finite, -⟩ :=
    (ClockTime.short_of_mem_allAfter (List.mem_of_head? first)).within
  exact ⟨value, finite,
    (Binary64.lt_iff_of_toRat? Binary64.toRat?_zero finite).mp steady.positive⟩

/-- Positions of the text in order have percentages in order. -/
theorem percent_le (steady : Steady length text) {earlier later : ClockTime}
    (member : earlier ∈ allAfter positionKeyword text)
    (member' : later ∈ allAfter positionKeyword text)
    (atMost : earlier.toSeconds ≤ later.toSeconds) :
    percentAt earlier.toSeconds length ≤ percentAt later.toSeconds length := by
  obtain ⟨value, measures, positive⟩ := steady.exists_value
  have short := ClockTime.short_of_mem_allAfter member
  have short' := ClockTime.short_of_mem_allAfter member'
  obtain ⟨low, finite, -⟩ := short.within
  obtain ⟨high, finite', -⟩ := short'.within
  exact percentAt_le_percentAt short.unsigned short'.unsigned finite finite' measures positive
    ((Binary64.le_iff_of_toRat? finite finite').mp atMost)

/-- A percentage at a position of the text has no sign. -/
theorem unsigned_percent (steady : Steady length text) {position : ClockTime}
    (member : position ∈ allAfter positionKeyword text) :
    (percentAt position.toSeconds length).Unsigned := by
  obtain ⟨value, measures, positive⟩ := steady.exists_value
  have short := ClockTime.short_of_mem_allAfter member
  obtain ⟨low, finite, -⟩ := short.within
  exact unsigned_percentAt short.unsigned finite measures positive

theorem unsigned_lastPercent (steady : Steady length text) (front : seen <+: text) :
    (lastPercent length seen).Unsigned := by
  cases known : (allAfter positionKeyword seen).getLast? with
  | none =>
      rw [lastPercent, known]
      exact Binary64.unsigned_ofRat le_rfl
  | some position =>
      rw [lastPercent, known]
      exact steady.unsigned_percent
        ((ClockTime.allAfter_prefix _ front).subset (List.mem_of_getLast? known))

/-- The percentages of the text so far are at most that at a later position. -/
theorem lastPercent_le (steady : Steady length text) (front : seen <+: text) {piece : List Char}
    (begun : piece <+: seen) {position : ClockTime}
    (last : (allAfter positionKeyword seen).getLast? = some position) :
    lastPercent length piece ≤ percentAt position.toSeconds length := by
  have inText := ClockTime.allAfter_prefix positionKeyword front
  have inSeen := ClockTime.allAfter_prefix positionKeyword begun
  have member := inText.subset (List.mem_of_getLast? last)
  cases known : (allAfter positionKeyword piece).getLast? with
  | none =>
      rw [lastPercent, known]
      exact (steady.unsigned_percent member).zero_le
  | some earlier =>
      have among := inSeen.subset (List.mem_of_getLast? known)
      rw [lastPercent, known]
      refine steady.percent_le (inText.subset among) member ?_
      have rising := steady.rising.sublist inText.sublist
      obtain ⟨before, split⟩ := List.getLast?_eq_some_iff.mp last
      rw [split] at rising among
      rcases List.mem_append.mp among with first | same
      · exact (List.pairwise_append.mp rising).2.2 _ first _ List.mem_cons_self
      · rw [List.mem_singleton.mp same]
        exact Binary64.le_self (ClockTime.short_of_mem_allAfter member).within.ne_nan

end Steady

/-- Without a position in sight nothing is reported. -/
theorem feed_of_unplaced {piece : List Char}
    (unplaced : (allAfter positionKeyword (parser.kept ++ piece)).getLast? = none) :
    parser.feed piece = .ok (parser.observe (parser.kept ++ piece), none) := by
  simp only [ProgressParser.feed, unplaced]
  split
  next both => contradiction
  next => rfl

/-- A position in sight is reported if its percentage is greater than those before. -/
theorem feed_of_placed {piece : List Char} {position : ClockTime}
    (counts : (parser.observe (parser.kept ++ piece)).effectiveDuration.filter (!·.isZero) =
      some (.real length))
    (placed : (allAfter positionKeyword (parser.kept ++ piece)).getLast? = some position) :
    parser.feed piece = .ok (
      if percentAt position.toSeconds length ≤ parser.lastProgress then
        (parser.observe (parser.kept ++ piece), none)
      else
        ({ parser.observe (parser.kept ++ piece) with
            lastProgress := percentAt position.toSeconds length },
          some (percentAt position.toSeconds length))) := by
  simp only [ProgressParser.feed, counts, placed, Number.toBinary64, observe_lastProgress]
  exact (apply_ite Except.ok _ _ _).symm

/-- A parser that has been given a beginning of a steady text and has reported how far it tells. -/
structure Tells (parser : ProgressParser) (fallback : Option Number) (length : Binary64)
    (seen : List Char) : Prop extends parser.Remembers fallback seen where
  reported : parser.lastProgress = lastPercent length seen

/-- The length that counts once the text has named it. -/
theorem Steady.effective (steady : Steady length text)
    (remembers : parser.Remembers fallback seen) (front : seen <+: text)
    (named : allAfter durationKeyword seen ≠ []) :
    parser.effectiveDuration.filter (!·.isZero) = some (.real length) := by
  obtain ⟨value, measures, positive⟩ := steady.exists_value
  have nonzero : length.isZero = false := by
    obtain ⟨negative, significand, exponent, canonical, rfl⟩ := Binary64.exists_eq_finite measures
    rw [Binary64.isZero, beq_eq_false_iff_ne]
    rintro rfl
    simp [Binary64.toRat?] at measures
    exact positive.ne measures
  have known : parser.duration = some length := by
    obtain ⟨first, later, split⟩ := List.exists_cons_of_ne_nil named
    have head : (allAfter durationKeyword seen).head? = some first := by rw [split, List.head?_cons]
    have same := steady.named_prefix front head
    rw [remembers.duration, split, List.head?_cons, Option.map_some, same]
  have counts : parser.effectiveDuration = some (.real length) := by
    rw [effectiveDuration, known]
    simp [nonzero]
  rw [counts, Option.filter_some]
  simp [Number.isZero, nonzero]

/-- The next piece of a steady text does not fail, and the parser tells as far as it reaches. -/
theorem Tells.feed (steady : Steady length text) (tells : parser.Tells fallback length seen)
    {piece : List Char} (front : seen ++ piece <+: text) :
    ∃ next report, parser.feed piece = .ok (next, report) ∧
      next.Tells fallback length (seen ++ piece) := by
  have observed := tells.toRemembers.observe piece
  have window : allAfter positionKeyword (parser.kept ++ piece) <:+
      allAfter positionKeyword (seen ++ piece) := by
    obtain ⟨before, split⟩ := rtake_suffix seen keptLength
    refine ClockTime.allAfter_suffix _ ⟨before, ?_⟩
    rw [tells.kept, ← List.append_assoc, split]
  cases listed : (allAfter positionKeyword (parser.kept ++ piece)).getLast? with
  | none =>
      -- No position is completed, so the last one is still that of the text before.
      have enough : ClockTime.labelledLength positionKeyword ≤ keptLength + 1 := by decide
      obtain ⟨fresh, whole, seenAgain⟩ := ClockTime.exists_fresh positionKeyword seen piece enough
      have nothing := List.getLast?_eq_none_iff.mp listed
      rw [tells.kept, seenAgain, List.append_eq_nil_iff] at nothing
      rw [nothing.2, List.append_nil] at whole
      refine ⟨_, none, feed_of_unplaced listed, observed, ?_⟩
      rw [observe_lastProgress, tells.reported, lastPercent, lastPercent, whole]
  | some position =>
      have last : (allAfter positionKeyword (seen ++ piece)).getLast? = some position := by
        obtain ⟨before, split⟩ := window
        rw [← split, List.getLast?_append, listed]
        rfl
      have named : allAfter durationKeyword (seen ++ piece) ≠ [] := by
        intro unnamed
        rw [steady.positions_eq_nil front unnamed] at last
        contradiction
      have counts := steady.effective observed front named
      have percent : lastPercent length (seen ++ piece) =
          percentAt position.toSeconds length := by
        rw [lastPercent, last]
        rfl
      rw [feed_of_placed counts listed, ← percent]
      split
      next low =>
        -- The percentages cannot fall, so one that is not greater is the same.
        have risen := steady.lastPercent_le front (List.prefix_append seen piece) last
        rw [← percent, ← tells.reported] at risen
        have unsigned := steady.unsigned_lastPercent ((List.prefix_append seen piece).trans front)
        rw [← tells.reported] at unsigned
        exact ⟨_, _, rfl, observed, unsigned.antisymm (steady.unsigned_lastPercent front) risen low⟩
      next rises => exact ⟨_, _, rfl, observed.report _, rfl⟩

/-- However a steady text comes in pieces, the parser takes them all and tells how far the whole
text reaches. -/
theorem Tells.feedAll (steady : Steady length text) (tells : parser.Tells fallback length seen)
    (pieces : List String) (front : seen ++ (String.join pieces).toList <+: text) :
    ∃ final reports, parser.feedAll pieces = .ok (final, reports) ∧
      final.Tells fallback length (seen ++ (String.join pieces).toList) := by
  induction pieces generalizing parser seen with
  | nil => exact ⟨parser, [], rfl, by simpa using tells⟩
  | cons piece rest ih =>
      rw [String.join_cons, String.toList_append, ← List.append_assoc] at front ⊢
      obtain ⟨next, report, fed, told⟩ :=
        tells.feed steady ((List.prefix_append _ _).trans front)
      obtain ⟨final, reports, all, finally'⟩ := ih told front
      refine ⟨final, report.toList ++ reports, ?_, finally'⟩
      simp only [ProgressParser.feedAll, fed, all, bind, Except.bind]
      rfl

/-- However a text comes in pieces, the last percentage is that at its last position, if the text
names a length above zero in front of all positions and these do not go back. -/
theorem lastProgress_of_pieces (steady : Steady length text) (fallback : Option Number)
    {pieces : List String} (cut : (String.join pieces).toList = text) :
    ∃ final reports,
      ({ fallbackDuration := fallback } : ProgressParser).feedAll pieces = .ok (final, reports) ∧
        final.lastProgress = lastPercent length text := by
  have start : ({ fallbackDuration := fallback } : ProgressParser).Tells fallback length [] :=
    ⟨remembers_start fallback, rfl⟩
  obtain ⟨final, reports, all, tells⟩ := start.feedAll steady pieces (by rw [cut]; rfl)
  refine ⟨final, reports, all, ?_⟩
  rw [tells.reported, List.nil_append, cut]

/-- Pieces that cut each time of a report. -/
def brokenReport : List String :=
  ["Durat", "ion: 00:00:20.00, start\nti", "me=00:00:05.00 time=00:0", "0:15.00 ", "time=00:00"]

theorem steady_brokenReport : Steady 20 (String.join brokenReport).toList where
  named := by decide +kernel
  positive := by decide +kernel
  ahead := by
    intro before rest split
    have everywhere : ∀ count ≤ (String.join brokenReport).toList.length,
        (ClockTime.labelled? positionKeyword
          ((String.join brokenReport).toList.drop count)).isSome →
          allAfter durationKeyword ((String.join brokenReport).toList.take count) ≠ [] := by
      decide +kernel
    have here := everywhere before.length (by rw [split, List.length_append]; omega)
    rwa [split, List.drop_left, List.take_left] at here
  rising := by decide +kernel

theorem lastProgress_brokenReport :
    ∃ final reports, ({} : ProgressParser).feedAll brokenReport = .ok (final, reports) ∧
      final.lastProgress = 75 := by
  obtain ⟨final, reports, all, last⟩ := lastProgress_of_pieces steady_brokenReport none rfl
  exact ⟨final, reports, all, last.trans (by decide +kernel)⟩

end ProgressParser

end Montage
