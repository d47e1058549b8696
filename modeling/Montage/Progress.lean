import Montage.Number
import Montage.Text.Digit

/-!
# Progress of a render

The external renderer reports on its work in free text. The first length that it names is the
length of the film, and each position that it names afterwards says how far it has come. Reports
arrive in pieces, so the end of the text is kept and read again with the next piece.
-/

namespace Montage

/-- A point of time in the form `hours:minutes:seconds.hundredths`. -/
structure ClockTime where
  hours : Nat
  minutes : Nat
  seconds : Nat
  hundredths : Nat
  deriving DecidableEq, Repr

namespace ClockTime

/-- The time in seconds. -/
def toSeconds (time : ClockTime) : Binary64 :=
  let whole := time.hours * 3600 + time.minutes * 60 + time.seconds
  Binary64.ofNat whole + (Binary64.ofNat time.hundredths).quotient 100

/-- Two decimal digits of any script in front of a text. -/
def takePair? : List Char → Option (Nat × List Char)
  | first :: second :: rest => do
      let tens ← Text.digitValue? first
      let units ← Text.digitValue? second
      return (tens * 10 + units, rest)
  | _ => none

/-- A mark and two digits in front of a text. -/
def takeMarkedPair? (mark : Char) : List Char → Option (Nat × List Char)
  | character :: rest => if character = mark then takePair? rest else none
  | [] => none

/-- A time in front of a text. -/
def atStart? (text : List Char) : Option ClockTime := do
  let (hours, rest) ← takePair? text
  let (minutes, rest) ← takeMarkedPair? ':' rest
  let (seconds, rest) ← takeMarkedPair? ':' rest
  let (hundredths, _) ← takeMarkedPair? '.' rest
  return ⟨hours, minutes, seconds, hundredths⟩

/-- A time after a keyword in front of a text. -/
def labelled? (keyword text : List Char) : Option ClockTime :=
  if keyword.isPrefixOf text then atStart? (text.drop keyword.length) else none

/-- All times after a keyword, in the order of the text. -/
def allAfter (keyword : List Char) : List Char → List ClockTime
  | [] => (labelled? keyword []).toList
  | character :: rest => (labelled? keyword (character :: rest)).toList ++ allAfter keyword rest

end ClockTime

/-- The keyword of the length of the film. -/
def durationKeyword : List Char := "Duration: ".toList

/-- The keyword of a position in the film. -/
def positionKeyword : List Char := "time=".toList

/-- How many characters are kept from one piece to the next. -/
def keptLength : Nat := 64

/-- What is known from the pieces so far. -/
structure ProgressParser where
  /-- The length that the text has named. -/
  duration : Option Binary64 := none
  /-- The last percentage that was reported. -/
  lastProgress : Binary64 := 0
  /-- The length that counts until the text names one. -/
  fallbackDuration : Option Number := none
  /-- The end of the text so far. -/
  kept : List Char := []
  deriving DecidableEq

namespace ProgressParser

/-- The length that counts: the named one, unless there is none or it is zero. -/
def effectiveDuration (parser : ProgressParser) : Option Number :=
  match parser.duration with
  | some duration => if duration.isZero then parser.fallbackDuration else some (.real duration)
  | none => parser.fallbackDuration

/-- Keep the end of a text, and the first length in it if none is known. -/
def observe (parser : ProgressParser) (text : List Char) : ProgressParser :=
  { parser with
    kept := text.drop (text.length - keptLength)
    duration := parser.duration.or
      ((ClockTime.allAfter durationKeyword text).head?.map ClockTime.toSeconds) }

/-- How much of a film of some length is done at a position, in percent and at most all. -/
def percentAt (position duration : Binary64) : Binary64 :=
  (position.quotient duration * 100).least 100

/-- Take the next piece. A percentage is reported only when it is greater than all before it. A
length that is zero gives none, and one beyond the range of binary64 numbers fails once it is
needed. -/
def feed (parser : ProgressParser) (piece : List Char) :
    Except ArithmeticError (ProgressParser × Option Binary64) :=
  let text := parser.kept ++ piece
  let parser := parser.observe text
  match parser.effectiveDuration.filter (!·.isZero),
      (ClockTime.allAfter positionKeyword text).getLast? with
  | some duration, some position => do
      let percent := percentAt position.toSeconds (← duration.toBinary64)
      if percent ≤ parser.lastProgress then return (parser, none)
      else return ({ parser with lastProgress := percent }, some percent)
  | _, _ => .ok (parser, none)

end ProgressParser

end Montage
