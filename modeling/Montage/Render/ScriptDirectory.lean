import Montage.Failure
import Montage.Table

/-!
# Filter scripts on disk

Filter scripts are too long for a command line, so each render writes its own to a new file and
deletes the file when the external renderer no longer reads it. A deletion that fails is passed
over.

A document can spell half of a surrogate pair by itself. Such a half is no character, so another
character stands for it, one that does not occur otherwise. No file can hold a half.
-/

namespace Montage

/-- Where writing a script fails. -/
inductive WriteFault where
  /-- The directory cannot be made. -/
  | directory
  /-- The file cannot be made. -/
  | creation
  /-- The file is there, but no more than this text reaches it. -/
  | content (written : String)
  deriving DecidableEq, Repr

/-- The directory of filter scripts. -/
structure ScriptDirectory where
  /-- The files by path, with their texts. -/
  files : Table String := []
  /-- The fault that the next write meets, if any. -/
  fault : Option WriteFault := none
  /-- The characters that stand for halves of surrogate pairs, with the codes of the halves. -/
  halves : List (Char × Nat) := []
  /-- Whether the next deletions succeed. One of which nothing is known does. -/
  deletions : List Bool := []
  deriving DecidableEq, Repr

/-- What becomes of a write. -/
inductive WriteOutcome where
  | written
  /-- The write fails before its file is there. -/
  | refused (failure : Failure)
  /-- The write fails when its file is there and holds a text. -/
  | abandoned (failure : Failure) (rest : String)
  deriving DecidableEq, Repr

namespace ScriptDirectory

/-- The report of a script that could not be written. -/
def writeFailure : Failure :=
  .reported (.ofKind .scriptFile (some "Failed to create filter script file"))

/-- Holds of a character that stands for half of a surrogate pair. -/
def isHalf (directory : ScriptDirectory) (character : Char) : Bool :=
  (directory.halves.lookup character).isSome

/-- The report of halves that stand behind a number of characters. -/
def encodingReport (directory : ScriptDirectory) (position : Nat) : List Char → String
  | [half] =>
      let code := (directory.halves.lookup half).getD 0
      "'utf-8' codec can't encode character '\\u" ++ String.ofList (Nat.toDigits 16 code) ++
        "' in position " ++ toString position ++ ": surrogates not allowed"
  | halves =>
      "'utf-8' codec can't encode characters in position " ++ toString position ++ "-" ++
        toString (position + halves.length - 1) ++ ": surrogates not allowed"

/-- Why a script cannot be encoded, if it cannot: the first halves in it. -/
def encodingFailure? (directory : ScriptDirectory) (script : String) : Option Failure :=
  let plain := script.toList.takeWhile fun character => !directory.isHalf character
  let halves := (script.toList.drop plain.length).takeWhile directory.isHalf
  if halves.isEmpty then none else some (.external (directory.encodingReport plain.length halves))

/-- What becomes of a script that is written to a new file. It is encoded when the file is there. -/
def outcome (directory : ScriptDirectory) (script : String) : WriteOutcome :=
  match directory.fault, directory.encodingFailure? script with
  | some .directory, _ => .refused writeFailure
  | some .creation, _ => .refused writeFailure
  | _, some failure => .abandoned failure ""
  | some (.content written), none => .abandoned writeFailure written
  | none, none => .written

/-- Write a script to a new file. -/
def write (directory : ScriptDirectory) (path script : String) :
    Except Failure Unit × ScriptDirectory :=
  match directory.outcome script with
  | .written => (.ok (), { directory with files := directory.files.insert path script })
  | .refused failure => (.error failure, directory)
  | .abandoned failure rest =>
      (.error failure, { directory with files := directory.files.insert path rest })

/-- Delete a script. A path without a file, and no path, are ignored. -/
def remove (directory : ScriptDirectory) (path : Option String) : ScriptDirectory :=
  match path with
  | none => directory
  | some path =>
      if directory.files.has path then
        match directory.deletions with
        | false :: later => { directory with deletions := later }
        | outcomes =>
            { directory with
              files := directory.files.filter (·.1 != path), deletions := outcomes.tail }
      else directory

end ScriptDirectory

end Montage
