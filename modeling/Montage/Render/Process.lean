import Montage.Text.Utf8

/-!
# External processes

An external renderer is known by what it shows: the text that it writes, in pieces, and the code
with which it ends. Once it is killed it writes nothing more and ends with the code of the kill,
unless the kill comes too late and finds it ended.
-/

namespace Montage

/-- A piece of what a process writes, or the end of the connection to it. -/
inductive Chunk where
  | text (content : String)
  | broken (reason : String)
  deriving DecidableEq, Repr

/-- A process that has been started. -/
structure Process where
  /-- What it has still to write. -/
  chunks : List Chunk := []
  exitCode : Int := 0
  /-- Whether it stays open after its last piece until it is killed. -/
  hangs : Bool := false
  killed : Bool := false
  /-- Whether it has ended by itself. A kill then changes nothing of what is still to be read. -/
  ended : Bool := false
  deriving DecidableEq, Repr

/-- What reading from a process gives. -/
inductive Reading where
  | text (content : String) (rest : Process)
  | broken (reason : String)
  /-- The process has closed its output. -/
  | closed
  /-- Nothing comes until the process is killed. -/
  | silent
  deriving DecidableEq, Repr

namespace Process

/-- The code with which a killed process ends. -/
def killedCode : Int := -9

/-- Kill a process. -/
def kill (process : Process) : Process :=
  { process with killed := true }

/-- Whether a kill has ended the process. -/
def stopped (process : Process) : Bool :=
  process.killed && !process.ended

/-- Read the next piece of output. -/
def read (process : Process) : Reading :=
  if process.stopped then .closed
  else
    match process.chunks with
    | .text content :: rest => .text content { process with chunks := rest }
    | .broken reason :: _ => .broken reason
    | [] => if process.hangs && !process.ended then .silent else .closed

/-- The code with which a process ends. -/
def code (process : Process) : Int :=
  if process.stopped then killedCode else process.exitCode

end Process

/-- How an attempt to start a process turns out. -/
inductive Launch where
  | refused (reason : String)
  | started (process : Process)
  deriving DecidableEq, Repr

/-! ## Processes of the operating system -/

/-- A process of the operating system, as bytes and codes. -/
structure SystemProcess where
  /-- The portions that reading gives. An empty portion is the end of the output. -/
  reads : List (List UInt8) := []
  exitCode : Int := 0
  /-- The code with which it has ended, once that is known. -/
  endedWith : Option Int := none
  /-- How often it was sent the signal to end. -/
  kills : Nat := 0
  deriving DecidableEq, Repr

namespace SystemProcess

/-- Read to the end of the output. What follows an empty portion stays unread. -/
def readAll (process : SystemProcess) : List String × SystemProcess :=
  let portions := process.reads.takeWhile fun portion => !portion.isEmpty
  let rest := (process.reads.dropWhile fun portion => !portion.isEmpty).drop 1
  ((Text.decodePortions .ready portions).map String.ofList, { process with reads := rest })

/-- Wait for the end. -/
def wait (process : SystemProcess) : Int × SystemProcess :=
  (process.exitCode, { process with endedWith := some process.exitCode })

/-- Send the signal to end, unless the end is known. -/
def kill (process : SystemProcess) : SystemProcess :=
  if process.endedWith.isSome then process else { process with kills := process.kills + 1 }

/-- The process as a supervisor sees it. What it writes is known to its end, so no kill can come
in time. -/
def toProcess (process : SystemProcess) : Process :=
  { chunks := process.readAll.1.map .text, exitCode := process.exitCode, ended := true }

end SystemProcess

end Montage
